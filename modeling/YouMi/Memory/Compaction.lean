import Mathlib.Algebra.Ring.Nat
import YouMi.Python.Text
import YouMi.Core.ToolExecutor

/-!
# Compacting a conversation

`ContextCompactor`: when a conversation has grown to the token threshold, its older
messages are replaced by a summary, or dropped where no summary can be had.  The
threshold is the product the constructor's two numbers give.  `len(text) / 3.5` is
taken as a quotient of integers, which rounds like the quotient of floats on any
text that fits in memory.
-/

namespace YouMi.Memory

open YouMi.Core YouMi.Python

inductive Role where
  | system
  | user
  | assistant
  | tool
  deriving DecidableEq

def Role.value : Role → String
  | .system => "system"
  | .user => "user"
  | .assistant => "assistant"
  | .tool => "tool"

/-- A tool call with its dictionary as `str` prints it. -/
structure CallEntry where
  id : String
  printed : String
  deriving DecidableEq

/-- A message of a conversation; `none` is a missing entry. -/
structure ChatMessage where
  role : Role
  content : Option String := none
  toolCalls : Option (List CallEntry) := none
  toolCallId : String := ""
  deriving DecidableEq

namespace ChatMessage

def isSystem (message : ChatMessage) : Bool := message.role == .system

/-- The ids an assistant message asks for. -/
def callIds (message : ChatMessage) : List String :=
  if message.role = .assistant then (message.toolCalls.getD []).map CallEntry.id else []

end ChatMessage

def estimateTokens (text : String) : Nat :=
  if text = "" then 0 else max 1 (text.length * 2 / 7)

/-- `str` of a list of tool calls. -/
def printedCalls (calls : List CallEntry) : String :=
  "[" ++ ", ".intercalate (calls.map CallEntry.printed) ++ "]"

def messageTokens (message : ChatMessage) : Nat :=
  estimateTokens (message.content.getD "") + 4 +
    match message.toolCalls with
    | some calls => estimateTokens (printedCalls calls)
    | none => 0

def estimateMessagesTokens (messages : List ChatMessage) : Nat :=
  (messages.map messageTokens).sum

structure ContextCompactor where
  maxTokens : Int
  /-- `int(max_tokens * reserve_ratio)`. -/
  threshold : Int
  keepRecent : Int
  /-- The call of the model, if there is one, on a prompt. -/
  llmCall : Option (String → Except Fault String)
  /-- `prompt.format(previous_summary=…, conversation=…)`. -/
  prompt : String → String → Except Fault String
  compactionSummary : Option String := none
  compactionCount : Nat := 0
  totalTokensCompacted : Nat := 0

namespace ContextCompactor

def needsCompaction (compactor : ContextCompactor) (messages : List ChatMessage) : Bool :=
  if compactor.maxTokens ≤ 0 then false
  else decide (compactor.threshold ≤ estimateMessagesTokens messages)

/-- `text.strip()`. -/
def strip (text : String) : String := String.ofList (trim isSpace text.toList)

def conversationText (messages : List ChatMessage) : String :=
  "\n".intercalate ((messages.filter fun message => message.content.getD "" ≠ "").map fun message =>
    message.role.value ++ ": " ++ message.content.getD "")

def previousSection (compactor : ContextCompactor) : String :=
  match compactor.compactionSummary with
  | none => ""
  | some summary => if summary = "" then "" else "之前的摘要:\n" ++ summary ++ "\n\n"

/-- `_generate_compaction_summary`. -/
def generateCompactionSummary (compactor : ContextCompactor) (messages : List ChatMessage) :
    Except Fault (Option String) :=
  match compactor.llmCall with
  | none => .ok none
  | some llmCall =>
      match compactor.prompt compactor.previousSection (conversationText messages) with
      | .error fault => .error fault
      | .ok prompt =>
          match llmCall prompt with
          | .ok result => .ok (if result = "" then none else some (strip result))
          | .error fault => if fault.isException then .ok none else .error fault

end ContextCompactor

/-- The place that `messages[:index]` and `messages[index:]` cut at. -/
def sliceAt (length : Nat) (index : Int) : Nat :=
  if index < 0 then (length + index).toNat else min index.toNat length

def systemMessages (messages : List ChatMessage) : List ChatMessage :=
  messages.filter ChatMessage.isSystem

def nonSystem (messages : List ChatMessage) : List ChatMessage :=
  messages.filter fun message => !message.isSystem

def summaryMessage (summary : String) : ChatMessage :=
  { role := .system, content := some ("[历史对话压缩摘要]\n" ++ summary) }

namespace ContextCompactor

/-- How many of the messages besides those of the system are removed. -/
def cut (compactor : ContextCompactor) (messages : List ChatMessage) : Nat :=
  sliceAt (nonSystem messages).length (-compactor.keepRecent)

def maybeCompact (compactor : ContextCompactor) (messages : List ChatMessage) :
    ContextCompactor × Except Fault (List ChatMessage) :=
  if compactor.needsCompaction messages then
    let others := nonSystem messages
    if (others.length : Int) ≤ compactor.keepRecent then (compactor, .ok messages)
    else
      let toCompact := others.take (compactor.cut messages)
      let toKeep := others.drop (compactor.cut messages)
      match compactor.generateCompactionSummary toCompact with
      | .error fault => (compactor, .error fault)
      | .ok (some summary) =>
          ({ compactor with
              compactionSummary := some summary
              compactionCount := compactor.compactionCount + 1
              totalTokensCompacted :=
                compactor.totalTokensCompacted + estimateMessagesTokens toCompact },
            .ok (systemMessages messages ++ summaryMessage summary :: toKeep))
      | .ok none =>
          ({ compactor with compactionCount := compactor.compactionCount + 1 },
            .ok (systemMessages messages ++ toKeep))
  else (compactor, .ok messages)

/-- The messages are compacted: there are enough tokens, and enough messages. -/
def Compacts (compactor : ContextCompactor) (messages : List ChatMessage) : Prop :=
  compactor.needsCompaction messages = true ∧
    compactor.keepRecent < (nonSystem messages).length

end ContextCompactor

end YouMi.Memory
