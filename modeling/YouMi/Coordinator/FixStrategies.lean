import YouMi.Mcp.Models
import YouMi.Memory.Sessions
import YouMi.Coordinator.PostTask
import YouMi.Coordinator.ToolApproval

/-!
# Fixes of tool descriptions

`FixStrategiesMixin` of `coordinator/fix_strategies.py` offers a fix of the texts of a tool:
what an LLM replies, if it replies an object, and what the rules say otherwise.  The fields
of a reply are JSON values of any kind.  What a prompt is answered with is an input, and so
is the order in which a set is iterated.
-/

namespace YouMi.Coordinator

open YouMi.Core YouMi.Library YouMi.Mcp YouMi.Memory YouMi.Python

inductive ToolIssueType where
  | unclearDescription
  | parameterBoundary
  | missingFeature
  | unexpectedBehavior
  | errorHandling
  | other
  deriving DecidableEq

structure ToolIssueReport where
  toolName : String
  issueType : ToolIssueType
  errorMessage : String := ""
  /-- `json.dumps` of the arguments of the call. -/
  callArguments : Except Fault String := .ok "{}"
  suggestion : String := ""
  deriving DecidableEq

structure ToolKnowledge where
  isEmpty : Bool
  knownIssues : List String

/-- The texts of a tool.  They are assigned without validation. -/
structure ToolTexts where
  description : PyVal
  parameters : List (String × PyVal) := []

/-- `(new_description, param_updates, code_suggestion)`. -/
structure Fix where
  newDescription : PyVal
  paramUpdates : PyVal := .dict []
  codeSuggestion : PyVal := .str ""

/-! ## Values of any kind -/

def typeError : Fault := .exception "TypeError"

/-- `value[:count]`, which a text and a list have. -/
def sliced : PyVal → Except Fault Unit
  | .str _ | .list _ => .ok ()
  | _ => .error typeError

/-- `text in value`. -/
def isIn (text : String) : PyVal → Except Fault Bool
  | .str whole => .ok (contains whole.toList text.toList)
  | .list items => .ok (items.any fun item => PyVal.pyEq (.str text) item)
  | .dict entries => .ok (entries.lookup text).isSome
  | _ => .error typeError

/-- `value[key]`. -/
def subscript (value : PyVal) (key : String) : Except Fault PyVal :=
  match value with
  | .dict entries =>
      match entries.lookup key with
      | some found => .ok found
      | none => .error (.exception "KeyError")
  | _ => .error typeError

/-! ## Rules -/

section Rules

variable (distinct : List String → List String)

/-- `'; '.join(set(errors))`. -/
def joined (errors : List String) : String := "; ".intercalate (distinct errors)

def boundaryLines : List ToolIssueReport → Except Fault (List String)
  | [] => .ok []
  | report :: rest => do
      let arguments ← report.callArguments
      let lines ← boundaryLines rest
      .ok (("  - 当参数为 " ++ arguments ++ " 时可能出现: " ++ report.errorMessage) :: lines)

/-- The parts that the type of the issue adds to the description. -/
def issueParts (reports : List ToolIssueReport) (primaryType : ToolIssueType) :
    Except Fault (List String) :=
  let errors := (reports.map ToolIssueReport.errorMessage).take 3
  let suggestions := (reports.map ToolIssueReport.suggestion).filter (· ≠ "")
  match primaryType with
  | .unclearDescription =>
      .ok (("\n\n[Guardian 修正] 已知问题：该工具描述可能导致误解。常见错误: " ++ joined distinct errors) ::
        if suggestions = [] then [] else ["使用建议: " ++ "; ".intercalate (suggestions.take 2)])
  | .parameterBoundary => do
      let lines ← boundaryLines (reports.take 3)
      .ok ("\n\n[Guardian 修正] 参数边界注意事项：" :: lines)
  | .missingFeature => .ok ["\n\n[Guardian 修正] 当前不支持的场景: " ++ joined distinct errors]
  | .unexpectedBehavior => .ok ["\n\n[Guardian 修正] 已知异常行为: " ++ joined distinct errors]
  | .errorHandling => .ok ["\n\n[Guardian 修正] 错误处理注意事项: " ++ joined distinct errors]
  | .other => .ok []

def ruleSuggestion (toolName : String) (reports : List ToolIssueReport)
    (primaryType : ToolIssueType) : String :=
  let errors := distinct ((reports.map ToolIssueReport.errorMessage).take 5)
  match primaryType with
  | .missingFeature => "工具 '" ++ toolName ++ "' 需要扩展功能以处理以下场景:\n" ++
      "\n".intercalate (errors.map ("  - " ++ ·))
  | .unexpectedBehavior => "工具 '" ++ toolName ++ "' 存在意外行为，建议排查:\n" ++
      "\n".intercalate (errors.map ("  - " ++ ·))
  | .errorHandling => "工具 '" ++ toolName ++ "' 需要增强错误处理:\n" ++
      "\n".intercalate (errors.map ("  - 处理: " ++ ·))
  | _ => ""

/-- The parts with the known issues that they do not mention. -/
def withKnowledge (knowledge : Option ToolKnowledge) (parts : List String) : List String :=
  match knowledge with
  | none => parts
  | some known =>
      if known.isEmpty then parts
      else
        let existing := "\n".intercalate parts
        let extra := (known.knownIssues.take 3).filter fun issue =>
          !contains existing.toList (slice issue 60).toList
        if extra = [] then parts
        else parts ++ ["\n[全局记忆] 历史已知未解决问题（本次一并修正）:\n" ++
          "\n".intercalate (extra.map fun issue => "  - " ++ slice issue 120)]

/-- The parts that the description does not have. -/
def freshParts (description : PyVal) : List String → Except Fault (List String)
  | [] => .ok []
  | part :: rest => do
      let stale ← (if strip part = "" then .ok true else isIn (strip part) description)
      let fresh ← freshParts description rest
      .ok (if stale then fresh else part :: fresh)

def appendParts (description : PyVal) (fresh : List String) : Except Fault PyVal :=
  if fresh = [] then .ok description
  else
    match description with
    | .str text => .ok (.str (text ++ "\n".intercalate fresh))
    | _ => .error typeError

/-- `_generate_fix_with_rules`. -/
def generateFixWithRules (toolName : String) (texts : ToolTexts)
    (reports : List ToolIssueReport) (primaryType : ToolIssueType)
    (knowledge : Option ToolKnowledge) : Except Fault Fix := do
  let parts ← issueParts distinct reports primaryType
  let fresh ← freshParts texts.description (withKnowledge knowledge parts)
  let newDescription ← appendParts texts.description fresh
  .ok { newDescription := newDescription
        codeSuggestion := .str (ruleSuggestion distinct toolName reports primaryType) }

/-! ## Replies -/

/-- The fix in an object that the LLM replies. -/
def Fix.ofReply (texts : ToolTexts) (entries : Dict) : Fix where
  newDescription := (entries.lookup "new_description").getD texts.description
  paramUpdates := (entries.lookup "param_updates").getD (.dict [])
  codeSuggestion := (entries.lookup "code_suggestion").getD (.str "")

/-- The arguments of all reports stand in the prompt. -/
def dumpArguments : List ToolIssueReport → Except Fault Unit
  | [] => .ok ()
  | report :: rest => do
      let _ ← report.callArguments
      dumpArguments rest

/-- `_generate_fix_with_llm`.  The reply is the JSON value of its text, or nothing where the text
is not JSON. -/
def generateFixWithLlm (reply : Except Fault (Option PyVal)) (toolName : String)
    (texts : ToolTexts) (reports : List ToolIssueReport) (primaryType : ToolIssueType)
    (knowledge : Option ToolKnowledge) : Except Fault Fix := do
  dumpArguments reports
  match ← caught reply with
  | some (some (.dict entries)) => .ok (.ofReply texts entries)
  | _ => generateFixWithRules distinct toolName texts reports primaryType knowledge

/-- `_generate_fix`. -/
def generateFix (llm : Option (Except Fault (Option PyVal))) (toolName : String)
    (texts : ToolTexts) (reports : List ToolIssueReport) (primaryType : ToolIssueType)
    (knowledge : Option ToolKnowledge) : Except Fault Fix :=
  match llm with
  | some reply => generateFixWithLlm distinct reply toolName texts reports primaryType knowledge
  | none => generateFixWithRules distinct toolName texts reports primaryType knowledge

end Rules

end YouMi.Coordinator
