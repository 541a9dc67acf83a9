import YouMi.Library.Runs
import YouMi.Mcp.Bridge
import Mathlib.Logic.Function.Basic

/-!
# The gate and its approvals

Agents load tools through bridges that share one gate and one vault; a person decides
the records that the gate and the guardian of the tools submit.  A world remembers
which records are the gate's and whose approval the next load of the tool should find.
The gate asks for the risk of a tool only, so a tool it has passed on to a person it
passes on again at every load.
-/

namespace YouMi.Mcp

open YouMi.Library

structure GateWorld (V : Type) where
  riskThreshold : String := "high"
  manager : ApprovalManager := {}
  vault : ToolVault V
  /-- Whose bridge has the vault. -/
  attached : String → Bool := fun _ => true
  bridges : String → ToolBridge V := fun agentId => { agentId }
  named : ∀ agentId, (bridges agentId).agentId = agentId := by exact fun _ => rfl
  /-- The identifiers under which records of the gate stand. -/
  gateIds : List String := []
  /-- Agents and tools: a record of the gate is approved, and the next load is to come. -/
  owed : List (String × String) := []

inductive GateEvent where
  /-- `_load_discovered_tool`, with what the server lists and the identifier drawn. -/
  | load (agentId : String) (listTools : Option (List String)) (freshId toolName : String)
  | approve (recordId decidedBy reason : String)
  | deny (recordId decidedBy reason : String)
  /-- `_escalate_to_human` of the guardian. -/
  | escalateToHuman (agentId toolName : String) (riskLevel : Option String)
      (freshId reason : String)

variable {V : Type}

namespace GateWorld

def gate (world : GateWorld V) : AuditGate :=
  { approvalManager := some world.manager, riskThreshold := world.riskThreshold }

def vaultOf (world : GateWorld V) (agentId : String) : Option (ToolVault V) :=
  if world.attached agentId then some world.vault else none

def loadOutcome (world : GateWorld V) (agentId : String) (listTools : Option (List String))
    (freshId toolName : String) : LoadOutcome V :=
  (world.bridges agentId).loadDiscoveredTool (world.vaultOf agentId) (some world.gate) listTools
    freshId toolName

def load (world : GateWorld V) (agentId : String) (listTools : Option (List String))
    (freshId toolName : String) : GateWorld V :=
  let outcome := world.loadOutcome agentId listTools freshId toolName
  let manager := (outcome.gate.bind AuditGate.approvalManager).getD world.manager
  let owed := world.owed.filter (· ≠ (agentId, toolName))
  { world with
    manager
    vault := outcome.vault.getD world.vault
    bridges := Function.update world.bridges agentId outcome.bridge
    named := by
      intro other
      by_cases same : other = agentId
      · subst same
        rw [Function.update_self]
        exact (ToolBridge.agentId_loadDiscoveredTool ..).trans (world.named other)
      · rw [Function.update_of_ne same]
        exact world.named other
    gateIds := if outcome.report.waits then freshId :: world.gateIds else world.gateIds
    owed :=
      if outcome.report.waits ∧ manager.decisionOf freshId = some .approved then
        (agentId, toolName) :: owed
      else owed }

/-- A record that waits is decided; the approval of a record of the gate is owed a load. -/
def settle (world : GateWorld V) (decision : ApprovalDecision)
    (recordId decidedBy reason : String) : GateWorld V :=
  { world with
    manager := (ApprovalManager.settle decision world.manager recordId decidedBy reason).2
    owed :=
      match world.manager.records.lookup recordId with
      | some record =>
          if record.decision = .pending ∧ decision = .approved ∧ recordId ∈ world.gateIds then
            (record.agentId, record.toolName) :: world.owed
          else world.owed
      | none => world.owed }

def escalateToHuman (world : GateWorld V) (agentId toolName : String)
    (riskLevel : Option String) (freshId reason : String) : GateWorld V :=
  let (record, manager) := world.manager.submitRequest freshId agentId toolName riskLevel
  { world with
    manager := manager.annotate record.recordId reason
    gateIds := world.gateIds.filter (· ≠ freshId) }

def step (world : GateWorld V) : GateEvent → GateWorld V
  | .load agentId listTools freshId toolName => world.load agentId listTools freshId toolName
  | .approve recordId decidedBy reason => world.settle .approved recordId decidedBy reason
  | .deny recordId decidedBy reason => world.settle .denied recordId decidedBy reason
  | .escalateToHuman agentId toolName riskLevel freshId reason =>
      world.escalateToHuman agentId toolName riskLevel freshId reason

/-- A record of the gate for the agent and the tool is pending or denied. -/
def Unapproved (world : GateWorld V) (agentId toolName : String) : Prop :=
  ∃ recordId ∈ world.gateIds, ∃ record, world.manager.records.lookup recordId = some record ∧
    record.agentId = agentId ∧ record.toolName = toolName ∧ record.decision ≠ .approved

/-- What the loop of approval promises of one event: the record that a load or the
guardian submits waits, a tool whose record is not approved is not activated, and the
next load after an approval activates the tool. -/
def LoopCloses (world : GateWorld V) : GateEvent → Prop
  | .load agentId listTools freshId toolName =>
      let report := (world.loadOutcome agentId listTools freshId toolName).report
      (report.waits = true →
          (world.load agentId listTools freshId toolName).manager.decisionOf freshId =
            some .pending) ∧
        (world.Unapproved agentId toolName → report.activates = false) ∧
        ((agentId, toolName) ∈ world.owed → report.activates = true)
  | .escalateToHuman agentId toolName riskLevel freshId reason =>
      (world.escalateToHuman agentId toolName riskLevel freshId reason).manager.decisionOf
        freshId = some .pending
  | _ => True

/-- What goes to a person is not on the list of automatic approvals, and no tool is loaded
again once its record is approved. -/
def LoopSpared (world : GateWorld V) : GateEvent → Prop
  | .load agentId listTools _ toolName =>
      (ToolExists (world.vaultOf agentId) listTools toolName →
        (world.bridges agentId).activeLineages.lookup
            (lineageOf (world.vaultOf agentId) toolName) = none →
          AuditGate.decisionFor world.riskThreshold
              (auditCandidate (world.vaultOf agentId) toolName)
              (world.bridges agentId).allowedTools = .manual →
            toolName ∉ world.manager.autoApproveList) ∧
        (agentId, toolName) ∉ world.owed
  | .escalateToHuman _ toolName _ _ _ => toolName ∉ world.manager.autoApproveList
  | _ => True

/-- The tool is of a risk the gate does not let the agent's loads pass with. -/
def Risky (world : GateWorld V) (agentId toolName : String) : Prop :=
  AboveThreshold world.riskThreshold (auditCandidate (world.vaultOf agentId) toolName).riskLevel

/-- The gate's records are all about risky tools. -/
structure Sound (world : GateWorld V) : Prop where
  records : ∀ recordId ∈ world.gateIds, ∀ record,
    world.manager.records.lookup recordId = some record →
      world.Risky record.agentId record.toolName
  owed : ∀ pair ∈ world.owed, world.Risky pair.1 pair.2

variable {world : GateWorld V} {agentId toolName freshId : String}
  {listTools : Option (List String)}

/-- A risky tool is not activated. -/
theorem not_activates_of_risky (risky : world.Risky agentId toolName) :
    (world.loadOutcome agentId listTools freshId toolName).report.activates = false := by
  have above : AboveThreshold world.gate.riskThreshold
      (auditCandidate (world.vaultOf agentId) toolName).riskLevel := risky
  exact ToolBridge.not_activates_of_aboveThreshold above listTools freshId (world.bridges agentId)

/-- When a load waits for a person. -/
theorem waits_iff (world : GateWorld V) (agentId : String) (listTools : Option (List String))
    (freshId toolName : String) :
    (world.loadOutcome agentId listTools freshId toolName).report.waits = true ↔
      ToolExists (world.vaultOf agentId) listTools toolName ∧
        (world.bridges agentId).activeLineages.lookup
            (lineageOf (world.vaultOf agentId) toolName) = none ∧
          AuditGate.decisionFor world.riskThreshold
              (auditCandidate (world.vaultOf agentId) toolName)
              (world.bridges agentId).allowedTools = .manual := by
  have loads := ToolBridge.loadsTo_loadDiscoveredTool (world.vaultOf agentId) (some world.gate)
    listTools freshId (world.bridges agentId) toolName
  unfold loadOutcome
  generalize (world.bridges agentId).loadDiscoveredTool (world.vaultOf agentId)
    (some world.gate) listTools freshId toolName = outcome at loads
  cases loads with
  | notFound missing => exact iff_of_false Bool.false_ne_true fun all => missing all.1
  | reused activeId there active => simp [LoadReport.waits, active]
  | blocked reason there inactive decided =>
      change AuditGate.decisionFor world.riskThreshold _ _ = .block at decided
      simp [LoadReport.waits, decided]
  | pending reason recordId there inactive decided =>
      exact iff_of_true rfl ⟨there, inactive, decided⟩
  | loaded there inactive decided =>
      change AuditGate.decisionFor world.riskThreshold _ _ = .pass at decided
      simp [LoadReport.waits, ToolBridge.loadAdmitted, decided]

/-- The manager after the gate has been asked. -/
theorem manager_asked (world : GateWorld V) (agentId freshId toolName : String) :
    (ToolBridge.askedGate (some world.gate) freshId (world.vaultOf agentId)
        (world.bridges agentId) toolName).bind AuditGate.approvalManager =
      if AuditGate.decisionFor world.riskThreshold
          (auditCandidate (world.vaultOf agentId) toolName)
          (world.bridges agentId).allowedTools = .manual then
        some (world.manager.submitRequest freshId agentId toolName
          (some (auditCandidate (world.vaultOf agentId) toolName).riskLevel)).2
      else some world.manager := by
  have checked := AuditGate.approvalManager_check world.gate freshId
    (world.bridges agentId).agentId (auditCandidate (world.vaultOf agentId) toolName)
    (world.bridges agentId).allowedTools
  rw [toolName_auditCandidate, world.named] at checked
  unfold ToolBridge.askedGate
  rw [Option.map_some, Option.bind_some, world.named]
  exact checked

/-- A load that waits submits a request, and no other load changes the manager. -/
theorem manager_load (world : GateWorld V) (agentId : String) (listTools : Option (List String))
    (freshId toolName : String) :
    (world.load agentId listTools freshId toolName).manager =
      if (world.loadOutcome agentId listTools freshId toolName).report.waits = true then
        (world.manager.submitRequest freshId agentId toolName
          (some (auditCandidate (world.vaultOf agentId) toolName).riskLevel)).2
      else world.manager := by
  have loads := ToolBridge.loadsTo_loadDiscoveredTool (world.vaultOf agentId) (some world.gate)
    listTools freshId (world.bridges agentId) toolName
  have asked := world.manager_asked agentId freshId toolName
  unfold load loadOutcome
  dsimp only
  generalize (world.bridges agentId).loadDiscoveredTool (world.vaultOf agentId)
    (some world.gate) listTools freshId toolName = outcome at loads
  cases loads with
  | notFound missing => rfl
  | reused activeId there active => rfl
  | blocked reason there inactive decided =>
      change AuditGate.decisionFor world.riskThreshold _ _ = .block at decided
      rw [decided] at asked
      exact congrArg (·.getD world.manager) asked
  | pending reason recordId there inactive decided =>
      change AuditGate.decisionFor world.riskThreshold _ _ = .manual at decided
      rw [decided] at asked
      exact congrArg (·.getD world.manager) asked
  | loaded there inactive decided =>
      change AuditGate.decisionFor world.riskThreshold _ _ = .pass at decided
      rw [decided] at asked
      exact congrArg (·.getD world.manager) asked

/-! ## Records are about risky tools -/

/-- No load changes the risk of a tool. -/
theorem risky_load_iff (world : GateWorld V) (loader : String)
    (listTools : Option (List String)) (freshId loaded agentId toolName : String) :
    (world.load loader listTools freshId loaded).Risky agentId toolName ↔
      world.Risky agentId toolName := by
  have vault := ToolBridge.vault_loadDiscoveredTool (world.vaultOf loader) (some world.gate)
    listTools freshId (world.bridges loader) loaded
  have candidate : auditCandidate (some (world.load loader listTools freshId loaded).vault)
      toolName = auditCandidate (some world.vault) toolName := by
    unfold load loadOutcome
    dsimp only
    rcases vault with same | ⟨own, given, changed⟩
    · rw [same]
      unfold vaultOf
      split <;> rfl
    · rw [changed, Option.getD_some, ToolBridge.auditCandidate_vault_loadTool]
      unfold vaultOf at given
      split at given
      · rw [Option.some.inj given]
      · cases given
  unfold Risky vaultOf
  by_cases has : world.attached agentId = true
  · have kept : (world.load loader listTools freshId loaded).attached agentId = true := has
    rw [if_pos has, if_pos kept, candidate]
    exact Iff.rfl
  · have kept : ¬(world.load loader listTools freshId loaded).attached agentId = true := has
    rw [if_neg has, if_neg kept]
    exact Iff.rfl

/-- What waits for a person is risky. -/
theorem risky_of_waits
    (waits : (world.loadOutcome agentId listTools freshId toolName).report.waits = true) :
    world.Risky agentId toolName := by
  have decided := ((world.waits_iff agentId listTools freshId toolName).mp waits).2.2
  unfold AuditGate.decisionFor at decided
  split at decided
  · cases decided
  · split at decided
    · assumption
    · cases decided

theorem sound_load (sound : world.Sound) (agentId : String) (listTools : Option (List String))
    (freshId toolName : String) : (world.load agentId listTools freshId toolName).Sound := by
  have manager := world.manager_load agentId listTools freshId toolName
  have risky := world.risky_load_iff agentId listTools freshId toolName
  cases waits : (world.loadOutcome agentId listTools freshId toolName).report.waits with
  | true =>
      rw [if_pos waits] at manager
      have gateIds : (world.load agentId listTools freshId toolName).gateIds =
          freshId :: world.gateIds := if_pos waits
      constructor
      · intro recordId member record found
        rw [risky]
        rw [manager, ApprovalManager.lookup_submitRequest] at found
        split at found
        · rw [← Option.some.inj found, (ApprovalManager.newRecord_fields ..).2.1,
            (ApprovalManager.newRecord_fields ..).2.2.1]
          exact risky_of_waits waits
        · rename_i other
          rw [gateIds] at member
          exact sound.records recordId (List.mem_of_ne_of_mem other member) record found
      · intro pair member
        rw [risky]
        change pair ∈ ite _ _ _ at member
        split at member
        · rcases List.mem_cons.mp member with rfl | before
          · exact risky_of_waits waits
          · exact sound.owed pair (List.mem_filter.mp before).1
        · exact sound.owed pair (List.mem_filter.mp member).1
  | false =>
      have silent :
          ¬(world.loadOutcome agentId listTools freshId toolName).report.waits = true := by
        rw [waits]
        exact Bool.false_ne_true
      rw [if_neg silent] at manager
      have gateIds : (world.load agentId listTools freshId toolName).gateIds = world.gateIds :=
        if_neg silent
      constructor
      · intro recordId member record found
        rw [risky]
        rw [manager] at found
        rw [gateIds] at member
        exact sound.records recordId member record found
      · intro pair member
        rw [risky]
        change pair ∈ ite _ _ _ at member
        rw [if_neg fun both => silent both.1] at member
        exact sound.owed pair (List.mem_filter.mp member).1

theorem sound_settle (sound : world.Sound) (decision : ApprovalDecision)
    (recordId decidedBy reason : String) :
    (world.settle decision recordId decidedBy reason).Sound := by
  constructor
  · intro other member after found
    change world.Risky after.agentId after.toolName
    have there := (ApprovalManager.lookup_settle decision world.manager recordId decidedBy reason
      other).symm.trans found
    obtain ⟨record, was, same⟩ := Option.map_eq_some_iff.mp there
    have risky := sound.records other member record was
    rw [← same]
    split <;> exact risky
  · intro pair member
    change world.Risky pair.1 pair.2
    unfold settle at member
    dsimp only at member
    split at member
    · rename_i record found
      split at member
      · rename_i approves
        rcases List.mem_cons.mp member with rfl | before
        · exact sound.records recordId approves.2.2 record found
        · exact sound.owed pair before
      · exact sound.owed pair member
    · exact sound.owed pair member

theorem sound_escalateToHuman (sound : world.Sound) (agentId toolName : String)
    (riskLevel : Option String) (freshId reason : String) :
    (world.escalateToHuman agentId toolName riskLevel freshId reason).Sound := by
  refine ⟨?_, sound.owed⟩
  intro other member after found
  change world.Risky after.agentId after.toolName
  obtain ⟨before, ne⟩ := List.mem_filter.mp member
  have other_id : other ≠ freshId := of_decide_eq_true ne
  have there := (ApprovalManager.lookup_annotate
    (world.manager.submitRequest freshId agentId toolName riskLevel).2
    (world.manager.submitRequest freshId agentId toolName riskLevel).1.recordId reason
    other).symm.trans found
  have same_id : (world.manager.submitRequest freshId agentId toolName riskLevel).1.recordId =
      freshId := (ApprovalManager.newRecord_fields ..).1
  rw [same_id, ApprovalManager.lookup_submitRequest, if_neg other_id] at there
  obtain ⟨record, was, same⟩ := Option.map_eq_some_iff.mp there
  rw [if_neg other_id] at same
  exact same ▸ sound.records other before record was

theorem sound_step (world : GateWorld V) (event : GateEvent) (sound : world.Sound) :
    (world.step event).Sound := by
  cases event with
  | load agentId listTools freshId toolName =>
      exact sound_load sound agentId listTools freshId toolName
  | approve recordId decidedBy reason =>
      exact sound_settle sound .approved recordId decidedBy reason
  | deny recordId decidedBy reason => exact sound_settle sound .denied recordId decidedBy reason
  | escalateToHuman agentId toolName riskLevel freshId reason =>
      exact sound_escalateToHuman sound agentId toolName riskLevel freshId reason

/-! ## The loop -/

/-- The record of a new request waits exactly if its tool is not on the list. -/
theorem decisionOf_submitRequest (manager : ApprovalManager) (freshId agentId toolName : String)
    (riskLevel : Option String) :
    (manager.submitRequest freshId agentId toolName riskLevel).2.decisionOf freshId =
        some .pending ↔ toolName ∉ manager.autoApproveList := by
  unfold ApprovalManager.decisionOf
  rw [ApprovalManager.lookup_submitRequest, if_pos rfl, Option.map_some,
    ApprovalManager.newRecord_decision]
  split <;> simp_all

theorem loop_load_iff (sound : world.Sound) (agentId : String)
    (listTools : Option (List String)) (freshId toolName : String) :
    world.LoopCloses (.load agentId listTools freshId toolName) ↔
      world.LoopSpared (.load agentId listTools freshId toolName) := by
  have manager := world.manager_load agentId listTools freshId toolName
  have waits_iff := world.waits_iff agentId listTools freshId toolName
  have records : ((world.loadOutcome agentId listTools freshId toolName).report.waits = true →
      (world.load agentId listTools freshId toolName).manager.decisionOf freshId =
        some .pending) ↔
      ((world.loadOutcome agentId listTools freshId toolName).report.waits = true →
        toolName ∉ world.manager.autoApproveList) := by
    refine forall_congr' fun waits => ?_
    rw [manager, if_pos waits]
    exact decisionOf_submitRequest ..
  have unapproved : world.Unapproved agentId toolName →
      (world.loadOutcome agentId listTools freshId toolName).report.activates = false := by
    rintro ⟨recordId, member, record, found, rfl, rfl, -⟩
    exact not_activates_of_risky (sound.records recordId member record found)
  have owed : ((agentId, toolName) ∈ world.owed →
      (world.loadOutcome agentId listTools freshId toolName).report.activates = true) ↔
      (agentId, toolName) ∉ world.owed := by
    constructor
    · intro activates member
      have idle : (world.loadOutcome agentId listTools freshId toolName).report.activates =
          false := not_activates_of_risky (sound.owed _ member)
      rw [activates member] at idle
      cases idle
    · intro absent member
      exact absurd member absent
  have curried : ((world.loadOutcome agentId listTools freshId toolName).report.waits = true →
      toolName ∉ world.manager.autoApproveList) ↔
      (ToolExists (world.vaultOf agentId) listTools toolName →
        (world.bridges agentId).activeLineages.lookup
            (lineageOf (world.vaultOf agentId) toolName) = none →
          AuditGate.decisionFor world.riskThreshold
              (auditCandidate (world.vaultOf agentId) toolName)
              (world.bridges agentId).allowedTools = .manual →
            toolName ∉ world.manager.autoApproveList) := by
    rw [waits_iff]
    exact ⟨fun all there inactive manual => all ⟨there, inactive, manual⟩,
      fun all both => all both.1 both.2.1 both.2.2⟩
  unfold LoopCloses LoopSpared
  dsimp only
  rw [records, owed, curried]
  exact ⟨fun ⟨first, _, last⟩ => ⟨first, last⟩, fun ⟨first, last⟩ => ⟨first, unapproved, last⟩⟩

theorem loop_escalate_iff (world : GateWorld V) (agentId toolName : String)
    (riskLevel : Option String) (freshId reason : String) :
    world.LoopCloses (.escalateToHuman agentId toolName riskLevel freshId reason) ↔
      world.LoopSpared (.escalateToHuman agentId toolName riskLevel freshId reason) := by
  have annotated : (world.escalateToHuman agentId toolName riskLevel freshId
      reason).manager.decisionOf freshId =
      (world.manager.submitRequest freshId agentId toolName riskLevel).2.decisionOf freshId := by
    unfold ApprovalManager.decisionOf escalateToHuman
    dsimp only
    rw [ApprovalManager.lookup_annotate, Option.map_map]
    refine congrArg (Option.map · _) ?_
    funext record
    dsimp only [Function.comp]
    split <;> rfl
  unfold LoopCloses LoopSpared
  dsimp only
  rw [annotated]
  exact decisionOf_submitRequest ..

theorem loop_iff (world : GateWorld V) (event : GateEvent) (sound : world.Sound) :
    world.LoopCloses event ↔ world.LoopSpared event := by
  cases event with
  | load agentId listTools freshId toolName =>
      exact loop_load_iff sound agentId listTools freshId toolName
  | approve recordId decidedBy reason => exact Iff.rfl
  | deny recordId decidedBy reason => exact Iff.rfl
  | escalateToHuman agentId toolName riskLevel freshId reason =>
      exact loop_escalate_iff world agentId toolName riskLevel freshId reason

/-- The world before its gate is asked for the first time. -/
def unasked (world : GateWorld V) : GateWorld V := { world with gateIds := [], owed := [] }

theorem sound_unasked (world : GateWorld V) : world.unasked.Sound where
  records recordId member := by cases member
  owed pair member := by cases member

/-- In every run of loads, approvals, denials and escalations the loop of approval closes
at every event exactly if what waits is never approved by the list, and no tool is loaded
again after a record of its load is approved. -/
theorem approval_loop_iff (world : GateWorld V) (events : List GateEvent) :
    StepsMeet step LoopCloses world.unasked events ↔
      StepsMeet step LoopSpared world.unasked events :=
  stepsMeet_congr step Sound sound_step loop_iff (sound_unasked world) events

/-- A vault with one critical tool. -/
def criticalTool : ToolVault Unit where
  entries :=
    [("tool", { ToolStore.plainEntry "1.0.0" with tier := .cold, riskLevel := "critical" })]
  store := ToolStore.StoreState.empty none

/-- The tool waits for approval, is approved, and waits for approval again. -/
theorem approved_tool_waits_again :
    ¬StepsMeet step LoopCloses (unasked { vault := criticalTool })
      [.load "a" none "r1" "tool", .approve "r1" "user" "", .load "a" none "r2" "tool"] := by
  rintro ⟨-, -, ⟨-, -, activates⟩, -⟩
  exact absurd (activates (by decide)) (by decide)

end GateWorld

end YouMi.Mcp
