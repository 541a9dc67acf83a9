import YouMi.Library.Exchanges

/-!
# Executing a tool call

`_execute_tool_call` asks the hooks, `_do_execute_tool` asks the breaker and
sets the time limit, `_dispatch_tool` runs the tool over the bridge or from the
registry.  Each appends its tool messages to the conversation, which is passed
on explicitly.  What hooks, tools, memory and the guardian do is an input.
-/

namespace YouMi.Core

open YouMi.Library

/-- What an awaited call throws.  `timer` marks a cancellation by `wait_for` itself. -/
inductive Fault where
  | exception (text : String)
  | timeoutError (text : String)
  | cancelled (timer : Bool)
  deriving DecidableEq

namespace Fault

/-- Whether `except Exception` catches it: a `CancelledError` passes. -/
def isException : Fault → Bool
  | exception _ | timeoutError _ => true
  | cancelled _ => false

/-- Whether `wait_for` ends in a `TimeoutError`. -/
def timesOut : Fault → Bool
  | exception _ => false
  | timeoutError _ => true
  | cancelled timer => timer

/-- `str(exc)`. -/
def text : Fault → String
  | exception text | timeoutError text => text
  | cancelled _ => ""

end Fault

structure ToolCall where
  id : String
  name : String
  deriving DecidableEq

/-- The content of a tool message: a text, or `json.dumps({"error": …})`. -/
inductive ToolContent where
  | text (text : String)
  | error (ensureAscii : Bool) (text : String)
  deriving DecidableEq

/-- An entry of `_conversation`. -/
inductive Message where
  | system (content : String)
  | user (content : String)
  | assistant (content : Option String) (toolCalls : List ToolCall)
  | tool (toolCallId : String) (content : ToolContent)
  deriving DecidableEq

/-- Assistant messages ask, tool messages answer. -/
def Message.line : Message → Line String
  | .system _ | .user _ => .remark
  | .assistant _ toolCalls => .request (toolCalls.map ToolCall.id)
  | .tool toolCallId _ => .answer toolCallId

/-- The conversation as a transcript. -/
def transcript (conversation : List Message) : List (Line String) := conversation.map Message.line

/--
Each assistant message is followed, before the next one, by exactly one tool
message for each of its tool calls, and by no other tool message.
-/
def Paired (conversation : List Message) : Prop := Line.Paired (transcript conversation)

structure ActionResult where
  success : Bool := true
  output : String := ""
  error : String := ""
  deriving DecidableEq

inductive HookDecision where
  | pass
  | modify
  | block (reason : String)
  deriving DecidableEq

/-- The result of a call over the tool bridge. -/
structure MCPToolResult where
  text : String
  isError : Bool

/-- The two ways a tool is run, with what comes back. -/
inductive Route where
  | bridge (callTool : Except Fault MCPToolResult)
  | registry (toolNames : List String) (execute : Except Fault String)

/-- What one tool call meets on its way, in the order in which it is met. -/
structure ToolUse where
  beforeToolCall : Except Fault HookDecision
  circuitOpen : Option String
  route : Route
  memory : Except Fault Unit
  report : Except Fault Unit
  printedTimeout : String
  timeoutReport : Except Fault Unit
  afterToolCall : Except Fault HookDecision

/-- `_auto_report_tool_error`: reporting fails silently. -/
def autoReportToolError (report : Except Fault Unit) : Except Fault Unit :=
  match report with
  | .ok () => .ok ()
  | .error fault => if fault.isException then .ok () else .error fault

/-- An error message is appended and reported, and the call has failed. -/
def failTool (conversation : List Message) (toolCallId : String) (ensureAscii : Bool)
    (errorMsg : String) (report : Except Fault Unit) :
    List Message × Except Fault ActionResult :=
  let conversation := conversation ++ [.tool toolCallId (.error ensureAscii errorMsg)]
  match autoReportToolError report with
  | .ok () => (conversation, .ok { success := false, error := errorMsg })
  | .error fault => (conversation, .error fault)

/-- The `except Exception` of the registry path. -/
def catchExecution (conversation : List Message) (name toolCallId : String) (fault : Fault)
    (report : Except Fault Unit) : List Message × Except Fault ActionResult :=
  if fault.isException then
    failTool conversation toolCallId true ("工具 '" ++ name ++ "' 执行失败: " ++ fault.text) report
  else (conversation, .error fault)

/-- `_dispatch_tool`. -/
def dispatchTool (conversation : List Message) (name toolCallId : String) (use : ToolUse) :
    List Message × Except Fault ActionResult :=
  match use.route with
  | .bridge (.error fault) => (conversation, .error fault)
  | .bridge (.ok result) =>
      let conversation := conversation ++ [.tool toolCallId (.text result.text)]
      if result.isError then
        match autoReportToolError use.report with
        | .ok () => (conversation, .ok { success := false, error := result.text })
        | .error fault => (conversation, .error fault)
      else
        match use.memory with
        | .ok () => (conversation, .ok { output := result.text })
        | .error fault => (conversation, .error fault)
  | .registry toolNames execute =>
      if name ∈ toolNames then
        match execute with
        | .error fault => catchExecution conversation name toolCallId fault use.report
        | .ok result =>
            let conversation := conversation ++ [.tool toolCallId (.text result)]
            match use.memory with
            | .ok () => (conversation, .ok { output := result })
            -- memory fails inside the same `try`, after the result was appended
            | .error fault => catchExecution conversation name toolCallId fault use.report
      else failTool conversation toolCallId true ("工具 '" ++ name ++ "' 未注册") use.report

/-- `_do_execute_tool`. -/
def doExecuteTool (conversation : List Message) (name toolCallId : String) (use : ToolUse) :
    List Message × Except Fault ActionResult :=
  match use.circuitOpen with
  | some error =>
      (conversation ++ [.tool toolCallId (.error false error)], .ok { success := false, error := error })
  | none =>
      match dispatchTool conversation name toolCallId use with
      | (conversation, .ok action) => (conversation, .ok action)
      | (conversation, .error fault) =>
          if fault.timesOut then
            failTool conversation toolCallId false
              ("工具 '" ++ name ++ "' 执行超时（>" ++ use.printedTimeout ++ "s）") use.timeoutReport
          else (conversation, .error fault)

/-- `_execute_tool_call`. -/
def executeToolCall (conversation : List Message) (name toolCallId : String) (use : ToolUse) :
    List Message × Except Fault ActionResult :=
  match use.beforeToolCall with
  | .error fault => (conversation, .error fault)
  | .ok (.block reason) =>
      (conversation, .ok { success := false, error := "工具调用被拦截: " ++ reason })
  | .ok _ =>
      match doExecuteTool conversation name toolCallId use with
      | (conversation, .error fault) => (conversation, .error fault)
      | (conversation, .ok action) =>
          match use.afterToolCall with
          | .ok _ => (conversation, .ok action)
          | .error fault => (conversation, .error fault)

/-- `_act`, for a tool call: an exception becomes a failed action. -/
def act (conversation : List Message) (name toolCallId : String) (use : ToolUse) :
    List Message × Except Fault ActionResult :=
  match executeToolCall conversation name toolCallId use with
  | (conversation, .ok action) => (conversation, .ok action)
  | (conversation, .error fault) =>
      if fault.isException then (conversation, .ok { success := false, error := fault.text })
      else (conversation, .error fault)

end YouMi.Core
