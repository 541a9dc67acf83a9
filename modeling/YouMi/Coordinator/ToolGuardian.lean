import YouMi.Library.RetryQueue
import YouMi.Coordinator.FixStrategies

/-!
# The guardian of the tools

`ToolGuardianAgent` of `coordinator/tool_guardian.py` takes reports of its queue in batches
and works on them tool by tool.  Between two attempts others change the tools, so that the
texts a tool has, when it is read and when it is updated, are inputs; so is what is answered
by knowledge, stores and the LLM.
-/

namespace YouMi.Coordinator

open YouMi.Core YouMi.Library YouMi.Memory YouMi.Python

/-- What `MCPServer.update_tool_description` is handed on to: the provider of the source, with the
texts that it has for the tool then, or anything else, which answers. -/
inductive Updater where
  | localFunction (texts : ToolTexts)
  | other (answer : Except Fault Bool)

/-- A global memory: `get_tool_knowledge`, and how the writes of `_persist_fix_to_memory` end. -/
structure MemoryUse where
  knowledge : Except Fault ToolKnowledge
  persist : Except Fault Unit

/-- A tool store: how `get_version_chain` ends, and what a fix is committed as. -/
structure StoreUse where
  versionChain : Except Fault Unit
  commit : Except Fault (Option String)

/-- What an attempt meets. -/
structure AttemptUse where
  definition : Option ToolTexts
  updater : Updater
  memory : Option MemoryUse := none
  toolStore : Option StoreUse := none
  gitHistory : Except Fault Unit := .ok ()
  llm : Option (Except Fault (Option PyVal)) := none
  distinctTypes : List ToolIssueType → List ToolIssueType := List.dedup
  distinctErrors : List String → List String := List.dedup
  approvalRecordId : Option String := none

structure FixResult where
  toolName : String
  issueTypes : List ToolIssueType
  descriptionUpdated : Bool := false
  codeSuggestion : PyVal := .str ""
  fixVersion : Option String := none
  fixAttempts : Nat := 0
  retryScheduled : Bool := false
  escalated : Bool := false
  approvalRecordId : Option String := none
  error : Option String := none

/-- `_pending_reports` and `_fix_attempts`. -/
structure ToolGuardian where
  pendingReports : List ToolIssueReport := []
  fixAttempts : OrderedDict String Nat := []

/-! ## Updates -/

/-- The text of a parameter, a new one if the updates name it. -/
def assignText (updates : PyVal) (name : String) (text : PyVal) : Except Fault PyVal := do
  let named ← isIn name updates
  if named then subscript updates name else .ok text

def assignTexts (updates : PyVal) :
    List (String × PyVal) → Except Fault (List (String × PyVal))
  | [] => .ok []
  | (name, text) :: rest => do
      let text ← assignText updates name text
      let rest ← assignTexts updates rest
      .ok ((name, text) :: rest)

/-- `LocalFunctionProvider.update_tool_description`, for a description that is given. -/
def ToolTexts.update (texts : ToolTexts) (description paramDescriptions : PyVal) :
    Except Fault ToolTexts := do
  let parameters ← (if truthy paramDescriptions then assignTexts paramDescriptions texts.parameters
    else .ok texts.parameters)
  .ok { description := description, parameters := parameters }

/-- `MCPServer.update_tool_description`. -/
def Updater.updateToolDescription (updater : Updater) (description paramDescriptions : PyVal) :
    Except Fault Bool :=
  match updater with
  | .localFunction texts => (texts.update description paramDescriptions).map fun _ => true
  | .other answer => answer

namespace Fix

/-- `new_description and new_description != old_description`. -/
def redescribes (fix : Fix) (texts : ToolTexts) : Bool :=
  truthy fix.newDescription && !PyVal.pyEq fix.newDescription texts.description

/-- What counts as a change: the fix offers one. -/
def changed (fix : Fix) (texts : ToolTexts) : Bool :=
  fix.redescribes texts || truthy fix.paramUpdates || truthy fix.codeSuggestion

/-- The description and the suggestion stand in a text, cut to a length. -/
def summarize (fix : Fix) (texts : ToolTexts) : Except Fault Unit := do
  (if fix.redescribes texts then sliced fix.newDescription else .ok ())
  (if truthy fix.codeSuggestion then sliced fix.codeSuggestion else .ok ())

end Fix

/-! ## One attempt -/

/-- `max(set(types), key=types.count)`. -/
def primaryType (distinct : List ToolIssueType → List ToolIssueType)
    (types : List ToolIssueType) : ToolIssueType :=
  ((distinct types).find? fun candidate =>
    (distinct types).all fun rival => types.count rival ≤ types.count candidate).getD .other

namespace AttemptUse

/-- `_load_tool_knowledge`. -/
def loadToolKnowledge (use : AttemptUse) : Except Fault (Option ToolKnowledge) :=
  match use.memory with
  | none => .ok none
  | some memory => caught memory.knowledge

/-- The version chain in the evidence, if there is a store. -/
def versionHistory (use : AttemptUse) : Except Fault Unit :=
  match use.toolStore with
  | none => .ok ()
  | some store => (caught store.versionChain).map fun _ => ()

/-- `_collect_evidence`. -/
def collectEvidence (use : AttemptUse) (texts : ToolTexts) : Except Fault Unit := do
  sliced texts.description
  use.versionHistory
  use.gitHistory

def offer (use : AttemptUse) (toolName : String) (texts : ToolTexts)
    (reports : List ToolIssueReport) (knowledge : Option ToolKnowledge) : Except Fault Fix :=
  generateFix use.distinctErrors use.llm toolName texts reports
    (primaryType use.distinctTypes (reports.map ToolIssueReport.issueType)) knowledge

/-- The update of the server, if the fix has a new description. -/
def apply (use : AttemptUse) (texts : ToolTexts) (fix : Fix) : Except Fault Bool :=
  if fix.redescribes texts then
    use.updater.updateToolDescription fix.newDescription fix.paramUpdates
  else .ok false

/-- `_persist_fix_to_memory`: the summary is made outside of its `try`. -/
def persistFixToMemory (use : AttemptUse) (texts : ToolTexts) (fix : Fix) : Except Fault Unit :=
  match use.memory with
  | none => .ok ()
  | some memory => do
      fix.summarize texts
      (caught memory.persist).map fun _ => ()

/-- A fix that has updated the description or suggests code is remembered. -/
def remember (use : AttemptUse) (texts : ToolTexts) (fix : Fix) (updated : Bool) :
    Except Fault Unit :=
  if updated || truthy fix.codeSuggestion then use.persistFixToMemory texts fix else .ok ()

/-- The steps up to the writing of the fix into the global memory: the fix, and whether the
description was updated. -/
def attempt (use : AttemptUse) (toolName : String) (texts : ToolTexts)
    (reports : List ToolIssueReport) : Except Fault (Fix × Bool) := do
  let knowledge ← use.loadToolKnowledge
  use.collectEvidence texts
  let fix ← use.offer toolName texts reports knowledge
  let updated ← use.apply texts fix
  use.remember texts fix updated
  .ok (fix, updated)

/-- `_commit_fix_version`, if there is a store. -/
def commitFixVersion (use : AttemptUse) : Except Fault (Option String) :=
  match use.toolStore with
  | none => .ok none
  | some store => (caught store.commit).map fun toolId =>
      if isId (toolId.getD none) then toolId.getD none else none

end AttemptUse

/-! ## The queue -/

namespace ToolGuardian

def attempts (s : ToolGuardian) (toolName : String) : Nat :=
  (s.fixAttempts.lookup toolName).getD 0

/-- Step 9, for a fix that counts as a change. -/
def settle (use : AttemptUse) (s : ToolGuardian) (result : FixResult) :
    ToolGuardian × Except Fault FixResult :=
  let attempts := s.attempts result.toolName
  let s := { s with fixAttempts := s.fixAttempts.erase result.toolName }
  match use.commitFixVersion with
  | .error fault => (s, .error fault)
  | .ok toolId => (s, .ok { result with fixAttempts := attempts + 1, fixVersion := toolId })

/-- The result of an attempt that offers no change. -/
def unchangedResult (result : FixResult) (attempts : Nat) : FixResult :=
  { result with
    fixAttempts := attempts
    error := some ("自动修复未产生实质变更 (第 " ++ toString attempts ++ "/" ++
      toString autoFixMaxAttempts ++ " 次)") }

/-- Step 9, for a fix that counts as none: the reports are queued again or escalated. -/
def retry (use : AttemptUse) (s : ToolGuardian) (reports : List ToolIssueReport)
    (result : FixResult) : ToolGuardian × Except Fault FixResult :=
  let attempts := s.attempts result.toolName + 1
  if autoFixMaxAttempts ≤ attempts then
    ({ s with fixAttempts := s.fixAttempts.erase result.toolName },
      .ok { unchangedResult result attempts with
        escalated := true
        approvalRecordId := use.approvalRecordId })
  else
    ({ pendingReports := s.pendingReports ++ reports
       fixAttempts := s.fixAttempts.assign result.toolName attempts },
      .ok { unchangedResult result attempts with retryScheduled := true })

/-- The result of an attempt before the last step. -/
def attemptResult (toolName : String) (reports : List ToolIssueReport) (fix : Fix)
    (updated : Bool) : FixResult where
  toolName := toolName
  issueTypes := reports.map ToolIssueReport.issueType
  descriptionUpdated := updated
  codeSuggestion := if truthy fix.codeSuggestion then fix.codeSuggestion else .str ""

/-- `_process_tool_reports`. -/
def processToolReports (use : AttemptUse) (s : ToolGuardian) (toolName : String)
    (reports : List ToolIssueReport) : ToolGuardian × Except Fault FixResult :=
  match use.definition with
  | none =>
      (s, .ok
        { toolName := toolName
          issueTypes := reports.map ToolIssueReport.issueType
          error := some ("工具 '" ++ toolName ++ "' 在 MCPServer 中未找到") })
  | some texts =>
      match use.attempt toolName texts reports with
      | .error fault => (s, .error fault)
      | .ok (fix, updated) =>
          let result := attemptResult toolName reports fix updated
          if fix.changed texts then s.settle use result else s.retry use reports result

/-- The reports of a tool that were worked on, and the result. -/
structure Handled where
  reports : List ToolIssueReport
  result : FixResult

/-- The tools of a batch; what raises at one of them leaves the loop. -/
def processTools (use : String → AttemptUse) :
    ToolGuardian → OrderedDict String (List ToolIssueReport) →
      ToolGuardian × List Handled × Except Fault Unit
  | s, [] => (s, [], .ok ())
  | s, (toolName, reports) :: rest =>
      match s.processToolReports (use toolName) toolName reports with
      | (s, .error fault) => (s, [], .error fault)
      | (s, .ok result) =>
          let (s, handled, ending) := processTools use s rest
          (s, ⟨reports, result⟩ :: handled, ending)

/-- A call of `process_reports`. -/
structure Call where
  batchSize : Nat
  pos : 1 ≤ batchSize
  use : String → AttemptUse

/-- The reports that a call takes, by their tools. -/
def batch (s : ToolGuardian) (call : Call) : OrderedDict String (List ToolIssueReport) :=
  groupBy ToolIssueReport.toolName (s.pendingReports.take call.batchSize)

/-- `process_reports`. -/
def processReports (s : ToolGuardian) (call : Call) :
    ToolGuardian × List Handled × Except Fault Unit :=
  processTools call.use { s with pendingReports := s.pendingReports.drop call.batchSize }
    (s.batch call)

end ToolGuardian

end YouMi.Coordinator
