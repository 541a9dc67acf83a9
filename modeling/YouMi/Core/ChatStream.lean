import Mathlib.Data.Finset.Card
import Mathlib.Algebra.Field.Rat
import YouMi.Core.ReactLoop
import YouMi.Library.Runs
import YouMi.Python.Text

/-!
# Streamed chat turns

`Agent.chat_turn_stream` makes the passes of `chat_turn` in a body of its own.  It asks
no hooks of the model, repeats a call that was rejected with the status code 400 on a
conversation without tools, and draws reminders from texts that call no tool.

`ChatAgent` is an agent with the chat turn that it is in, plain or streamed.  The
repetition of a rejected call is an event of its own.  A consumer that closes the
generator leaves the turn between two passes; within one it is a `cancelled` fault.
-/

namespace YouMi.Core

open YouMi.Library YouMi.Python

/-- The 3-grams of the stripped text; a shorter text is its only one. -/
def ngrams (text : List Char) : Finset (List Char) :=
  let text := trim isSpace text
  if text.length < 3 then {text}
  else ((List.range (text.length - 2)).map fun i => (text.drop i).take 3).toFinset

/-- `_text_similarity`: the Jaccard coefficient of the 3-grams. -/
def textSimilarity (a b : String) : ℚ :=
  if a = "" ∨ b = "" then 0
  else
    let setA := ngrams a.toList
    let setB := ngrams b.toList
    ((setA ∩ setB).card : ℚ) / (setA ∪ setB).card

/-- Neither a tool message nor an assistant message with tool calls. -/
def Message.withoutTools : Message → Bool
  | .tool _ _ => false
  | .assistant _ toolCalls => toolCalls.isEmpty
  | .system _ | .user _ => true

/-- What `chat_stream` comes to: an answer, a status code 400, or another fault. -/
inductive StreamAnswer where
  | answered (response : LLMResponse)
  | badRequest (text : String)
  | failed (fault : Fault)

/-- What one pass of the loop of `chat_turn_stream` meets. -/
structure StreamPass where
  compacts : Bool
  observe : Except Fault Unit
  /-- `none` where there is no client. -/
  answer : Option StreamAnswer
  toolNames : List String
  use : ToolUse
  /-- The ids and roles of the sub-agents that were created and have not run. -/
  unrun : List (String × String)
  /-- The tracker says that the workflow is done. -/
  allDone : Bool
  memory : Except Fault Unit

/-- The local variables of `chat_turn_stream`; the turn of the agent counts the iterations. -/
structure StreamTurn where
  message : String
  consecutiveNoTool : Nat := 0
  lastTextNoTool : String := ""
  responseText : String := ""
  /-- The last call was rejected, and is made again without tools. -/
  retrying : Bool := false

/-- What a chat turn returns, or yields last. -/
structure ChatResult where
  response : String
  iterations : Nat
  toolCalls : List String
  error : Option String
  deriving DecidableEq

structure ChatAgent where
  agent : Agent := {}
  streamTurn : Option StreamTurn := none
  /-- `tool_calls_made` of the turn. -/
  toolCallsMade : List String := []
  results : List ChatResult := []

/-- The reminder that a text without a tool call draws. -/
def delegationReminder (toolNames toolCallsMade : List String) (unrun : List (String × String))
    (allDone : Bool) : String :=
  if allDone then
    "【系统提示】所有工作流步骤已全部完成。请立即汇总已有结果并回复用户，不要再调用任何工具。"
  else if unrun ≠ [] then
    "【系统提醒】你有 " ++ toString unrun.length ++ " 个已创建但未运行的子Agent：" ++
      ", ".intercalate (unrun.map fun (id, role) => (id.take 8).toString ++ "(" ++ role ++ ")") ++
      "。请使用 run_sub_agent 运行它们，不要创建新的子Agent。全部运行完后，汇总结果回复用户。"
  else if toolCallsMade ≠ [] then
    "【系统提醒】你已经在执行工作流，但当前迭代未调用任何工具。" ++
      "请继续执行下一步：创建下一个子Agent，或运行已创建的子Agent" ++
      "（使用 run_sub_agent），或汇总结果回复用户。不要停下来等待用户输入。不要重复之前的文字。"
  else
    "【系统提醒】你有可用的工具（" ++ "、".intercalate toolNames ++
      "）。你应该使用工具来完成任务，而不是直接回答。" ++
      "请立即调用 create_sub_agent 创建子Agent。不要输出计划性文字，直接行动。"

/-- The name of the tool that a pass of `chat_turn` calls. -/
def Agent.calledTool (config : AgentConfig) (agent : Agent) (pass : Pass) : Option String :=
  match agent.observe pass with
  | (_, .error _) => none
  | (agent, .ok ()) =>
      match (agent.think config pass.client).2 with
      | .ok (.toolCall _ name) => some name
      | _ => none

namespace ChatAgent

variable (config : AgentConfig) (typeName : Fault → String)

/-- The result is handed over once its response, unless it is empty, is in memory. -/
def finish (c : ChatAgent) (response : String) (iterations : Nat) (error : Option String)
    (memory : Except Fault Unit) : ChatAgent :=
  if response = "" ∨ memory.isOk then
    { c with results := c.results ++ [⟨response, iterations, c.toolCallsMade, error⟩] }
  else c

/-- `error_msg`. -/
def errorMsg (fault : Fault) : String := typeName fault ++ ": " ++ fault.text

/-- One pass of the loop of `chat_turn`, or its `else` branch, with the result. -/
def chatPass (c : ChatAgent) (iterations : Nat) (pass : Pass) : ChatAgent :=
  let after := { c with agent := c.agent.chatPass config iterations pass }
  if iterations < config.maxIterations then
    let after := { after with
      toolCallsMade := c.toolCallsMade ++ (c.agent.calledTool config pass).toList }
    match (c.agent.react config pass).2 with
    | .error fault =>
        if fault.isException then
          let error := errorMsg typeName fault
          after.finish ("处理出错: " ++ error) (iterations + 1) (some error) pass.memory
        else after
    | .ok (.toolCall _ _, _) => after
    | .ok (.respond response, _) => after.finish response (iterations + 1) none pass.memory
  else after.finish "达到最大迭代次数，回复可能不完整。" iterations none pass.memory

/-- `chat_turn_stream` from the end of its loop on. -/
def endStream (c : ChatAgent) (response : String) (iterations : Nat) (error : Option String)
    (memory : Except Fault Unit) : ChatAgent :=
  { c with agent := c.agent.endChat response memory, streamTurn := none }.finish response
    iterations error memory

/-- An error is the response, unless there is a text; a cancellation is passed on. -/
def streamFailed (c : ChatAgent) (turn : StreamTurn) (iterations : Nat) (fault : Fault)
    (memory : Except Fault Unit) : ChatAgent :=
  if fault.isException then
    let error := errorMsg typeName fault
    c.endStream (if turn.responseText = "" then "处理出错: " ++ error else turn.responseText)
      iterations (some error) memory
  else { c with agent := c.agent.endTurn c.agent.status, streamTurn := none }

/-- The loop goes on with its next iteration. -/
def continueStream (c : ChatAgent) (turn : StreamTurn) (iterations : Nat) : ChatAgent :=
  { c with
    agent := { c.agent with turn := .chatting iterations }
    streamTurn := some { turn with retrying := false } }

/-- A tool call of a response, native or from its text. -/
def streamAct (c : ChatAgent) (turn : StreamTurn) (iterations : Nat) (call : ToolCall)
    (pass : StreamPass) : ChatAgent :=
  let c := { c with toolCallsMade := c.toolCallsMade ++ [call.name] }
  match act c.agent.conversation call.name call.id pass.use with
  | (conversation, .error fault) =>
      { c with agent := { c.agent with conversation } }.streamFailed typeName turn iterations fault
        pass.memory
  | (conversation, .ok _) =>
      { c with agent := { c.agent with conversation } }.continueStream
        { turn with consecutiveNoTool := 0 } iterations

/-- A response that calls no tool: it ends the turn, or a long one draws a reminder. -/
def streamText (c : ChatAgent) (turn : StreamTurn) (iterations : Nat) (pass : StreamPass) :
    ChatAgent :=
  let text := turn.responseText
  if pass.toolNames ≠ [] ∧ 30 < text.length then
    let noTool := turn.consecutiveNoTool + 1
    if turn.lastTextNoTool ≠ "" ∧ 3 / 5 < textSimilarity text turn.lastTextNoTool then
      c.endStream text iterations none pass.memory
    else if noTool ≤ 3 then
      { c with
        agent := c.agent.append
          (.user (delegationReminder pass.toolNames c.toolCallsMade pass.unrun pass.allDone))
      }.continueStream { turn with consecutiveNoTool := noTool, lastTextNoTool := text } iterations
    else c.endStream text iterations none pass.memory
  else c.endStream text iterations none pass.memory

/-- What follows a response of the model. -/
def hear (c : ChatAgent) (turn : StreamTurn) (iterations : Nat) (response : LLMResponse)
    (pass : StreamPass) : ChatAgent :=
  let c := { c with agent := c.agent.append response.rawMessage }
  match response.toolCalls with
  | call :: _ => c.streamAct typeName turn iterations call pass
  | [] =>
      let turn := { turn with responseText := response.content }
      match chooseToolCall config response pass.toolNames with
      | .error fault => c.streamFailed typeName turn iterations fault pass.memory
      | .ok (some call) => c.streamAct typeName turn iterations call pass
      | .ok none => c.streamText turn iterations pass

/-- What `chat_stream` answers; only the first call of a pass is repeated. -/
def receive (c : ChatAgent) (turn : StreamTurn) (iterations : Nat) (answer : StreamAnswer)
    (pass : StreamPass) : ChatAgent :=
  match answer with
  | .failed fault => c.streamFailed typeName turn iterations fault pass.memory
  | .answered response => c.hear config typeName turn iterations response pass
  | .badRequest text =>
      if turn.retrying then c.streamFailed typeName turn iterations (.exception text) pass.memory
      else
        { c with
          agent := { c.agent with
            conversation := c.agent.conversation.filter Message.withoutTools }
          streamTurn := some { turn with retrying := true } }

/-- One pass of the loop of `chat_turn_stream`, or what follows its last one. -/
def streamPass (c : ChatAgent) (turn : StreamTurn) (iterations : Nat) (pass : StreamPass) :
    ChatAgent :=
  if iterations < config.maxIterations then
    let c := { c with agent := c.agent.callModel pass.compacts.toNat }
    match pass.observe with
    | .error fault => c.streamFailed typeName turn (iterations + 1) fault pass.memory
    | .ok () =>
        match pass.answer with
        | some answer =>
            { c with agent := c.agent.callModel 1 }.receive config typeName turn (iterations + 1)
              answer pass
        | none =>
            c.endStream ("[无LLM客户端] 收到: " ++ turn.message) (iterations + 1) none pass.memory
  else c.endStream turn.responseText iterations none pass.memory

end ChatAgent

inductive ChatEvent where
  | plain (event : Agent.Event)
  | startStream (start : ChatStart)
  | streamPass (pass : StreamPass)
  /-- The consumer closes the generator. -/
  | leave

namespace ChatAgent

variable (config : AgentConfig) (typeName : Fault → String)

/-- `chat_turn_stream`, up to its loop. -/
def startStream (c : ChatAgent) (start : ChatStart) : ChatAgent :=
  let agent := c.agent.startChat config start
  { c with
    agent
    toolCallsMade := []
    streamTurn := if agent.turn = .none then none else some { message := start.message } }

/-- Turns do not overlap, streamed or not. -/
def step (c : ChatAgent) (event : ChatEvent) : ChatAgent :=
  match event, c.streamTurn, c.agent.turn with
  | .plain (.pass pass), none, .chatting iterations => c.chatPass config typeName iterations pass
  | .plain (.startChat start), none, .none =>
      { c with agent := c.agent.step config (.startChat start), toolCallsMade := [] }
  | .plain event, none, _ => { c with agent := c.agent.step config event }
  | .startStream start, none, .none => c.startStream config start
  | .streamPass pass, some turn, .chatting iterations =>
      c.streamPass config typeName turn iterations pass
  | .leave, some _, _ => { c with agent := c.agent.endTurn c.agent.status, streamTurn := none }
  | _, _, _ => c

end ChatAgent

end YouMi.Core
