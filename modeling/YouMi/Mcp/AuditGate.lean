import YouMi.Mcp.Approval
import YouMi.Core.Tool

/-!
# The audit gate

`AuditGate.check` stands between the choice of a tool and its loading.  It asks for
the permissions the tool requires first, then for its risk.  The gate keeps no memory
of its own: what it has passed on for approval it does not look up again.  The events
it logs are left out, and a reason is kept as what its text is made of.
-/

namespace YouMi.Mcp

open YouMi.Core YouMi.Library

/-- A tool as a search returns it; the score is left out. -/
structure ToolSearchResult where
  toolName : String
  definition : Option ToolDefinition := none
  summary : String := ""
  riskLevel : String := "low"
  requiredPermissions : List String := []
  lineageId : String := ""

inductive AuditDecision where
  | pass
  | block
  | manual
  deriving DecidableEq, Repr

inductive AuditReason where
  | none
  /-- The permissions that are missing, in order, and those that are required. -/
  | permissions (missing required : List String)
  | risk (riskLevel riskThreshold : String)

structure AuditResult where
  decision : AuditDecision := .pass
  reason : AuditReason := .none
  recordId : String := ""

structure AuditGate where
  approvalManager : Option ApprovalManager := none
  riskThreshold : String := "high"

/-- What is required and not granted; nothing is missing where there are no permissions. -/
def missingPermissions (granted : Option (List String)) (required : List String) : List String :=
  match granted with
  | none => []
  | some granted => required.filter (· ∉ granted)

/-- The risk is above the threshold. -/
def AboveThreshold (riskThreshold riskLevel : String) : Prop :=
  riskRank riskThreshold < riskRank riskLevel

instance (riskThreshold riskLevel : String) :
    Decidable (AboveThreshold riskThreshold riskLevel) := by
  unfold AboveThreshold
  infer_instance

namespace AuditGate

/-- `freshId` is the identifier drawn for a record. -/
def check (gate : AuditGate) (freshId : String) (candidate : ToolSearchResult) (agentId : String)
    (granted : Option (List String)) : AuditResult × AuditGate :=
  let missing := missingPermissions granted candidate.requiredPermissions
  if missing ≠ [] then
    ({ decision := .block
       reason := .permissions (missing.eraseDups.mergeSort fun a b => decide (a ≤ b))
         candidate.requiredPermissions }, gate)
  else if AboveThreshold gate.riskThreshold candidate.riskLevel then
    let result : AuditResult :=
      { decision := .manual, reason := .risk candidate.riskLevel gate.riskThreshold }
    match gate.approvalManager with
    | none => (result, gate)
    | some manager =>
        let (record, manager) :=
          manager.submitRequest freshId agentId candidate.toolName (some candidate.riskLevel)
        ({ result with recordId := record.recordId },
          { gate with approvalManager := some manager })
  else ({}, gate)

/-- The decision, which depends on the candidate, the threshold and the permissions only. -/
def decisionFor (riskThreshold : String) (candidate : ToolSearchResult)
    (granted : Option (List String)) : AuditDecision :=
  if missingPermissions granted candidate.requiredPermissions ≠ [] then .block
  else if AboveThreshold riskThreshold candidate.riskLevel then .manual
  else .pass

variable (gate : AuditGate) (freshId agentId : String) (candidate : ToolSearchResult)
  (granted : Option (List String))

theorem check_decision :
    (gate.check freshId candidate agentId granted).1.decision =
      decisionFor gate.riskThreshold candidate granted := by
  unfold check decisionFor
  dsimp only
  split
  · rfl
  · split
    · split <;> rfl
    · rfl

/-- Only a decision for a person changes the manager: it gets a request. -/
theorem approvalManager_check :
    (gate.check freshId candidate agentId granted).2.approvalManager =
      if decisionFor gate.riskThreshold candidate granted = .manual then
        gate.approvalManager.map fun manager =>
          (manager.submitRequest freshId agentId candidate.toolName
            (some candidate.riskLevel)).2
      else gate.approvalManager := by
  unfold check decisionFor
  dsimp only
  split
  · rfl
  · split
    · rw [if_pos rfl]
      cases found : gate.approvalManager with
      | none => exact found
      | some manager => rfl
    · rfl

/-- A tool of a risk above the threshold never passes. -/
theorem not_pass_of_aboveThreshold {riskThreshold : String} {candidate : ToolSearchResult}
    (above : AboveThreshold riskThreshold candidate.riskLevel) (granted : Option (List String)) :
    decisionFor riskThreshold candidate granted ≠ .pass := by
  unfold decisionFor
  rw [if_pos above]
  split <;> decide

end AuditGate

end YouMi.Mcp
