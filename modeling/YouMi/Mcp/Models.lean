import YouMi.Core.Tool

/-!
# Tool entries and their summaries

The entry through which a tool is handed to and taken from the store, and the
summaries of both levels that the store generates for it.  Vectors are of any type `V`;
an entry without a vector has the empty one.
-/

namespace YouMi.Mcp

open YouMi.Core YouMi.Python

structure ToolEntry (V : Type) where
  toolName : String
  definition : ToolDefinition
  providerId : String
  essential : Bool
  embedding : Option V
  summary : String
  version : String
  language : String
  riskLevel : String
  requiredPermissions : List String
  lineageId : String
  summaryL2 : String
  origin : String
  stage : VersionStage

/-- `text[:count]`. -/
def slice (text : String) (count : Nat) : String := String.ofList (text.toList.take count)

/-- `text.strip()`. -/
def strip (text : String) : String := String.ofList (trim isSpace text.toList)

/-- `first or second`. -/
def orElse (first second : String) : String := if first = "" then second else first

theorem orElse_orElse (first second : String) :
    orElse (orElse first second) second = orElse first second := by
  by_cases empty : first = ""
  · unfold orElse
    rw [if_pos empty, ite_self]
  · have first : orElse first second = first := if_neg empty
    rw [first]
    exact first

/-- A chat client: the reply to a prompt, or nothing where the call raises. -/
abbrev Chat := String → Option String

def l1Prompt (name description : String) : String :=
  "用不超过 80 字概括以下工具的功能, 直接输出摘要文本, 不要任何前缀:\n工具名: " ++ name ++
    "\n描述: " ++ description

def l2Prompt (name summary : String) : String :=
  "用不超过 30 字提炼以下工具摘要的核心要点, 直接输出文本, 不要任何前缀:\n工具名: " ++ name ++
    "\n摘要: " ++ summary

/-- `SummaryGenerator.generate_l1`: the first 80 characters, or a chat client's reply. -/
def generateL1 (chat : Option Chat) (name description : String) : String :=
  let heuristic := strip (slice description 80)
  match chat with
  | none => heuristic
  | some reply =>
      if heuristic = "" then heuristic
      else
        match reply (l1Prompt name description) with
        | none => heuristic
        | some text => orElse (strip text) heuristic

/-- `SummaryGenerator.generate_l2`: the first 30 characters, or a chat client's reply. -/
def generateL2 (chat : Option Chat) (name summaryL1 : String) : String :=
  let heuristic := strip (slice summaryL1 30)
  match chat with
  | none => heuristic
  | some reply =>
      if heuristic = "" then heuristic
      else
        match reply (l2Prompt name summaryL1) with
        | none => heuristic
        | some text => orElse (strip text) heuristic

end YouMi.Mcp
