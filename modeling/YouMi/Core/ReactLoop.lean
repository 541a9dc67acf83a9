import YouMi.Core.ToolExecutor

/-!
# The ReAct loop

`Agent.run` and `Agent.chat_turn` repeat one pass: observe, think, act.  The
agent takes events: a turn begins, or the loop makes a pass.  What the model,
the hooks, the tools and memory do comes with the event.  Each call of the
model records the conversation at that moment.
-/

namespace YouMi.Core

open YouMi.Library

inductive AgentStatus where
  | created
  | idle
  | running
  | waiting
  | completed
  | failed
  | destroyed
  deriving DecidableEq

structure AgentConfig where
  systemPrompt : String := ""
  maxIterations : Nat := 20
  /-- The tools that the patterns of `_parse_text_tool_calls` find in a text, in order. -/
  recognise : String → List String → Except Fault (List String)

/-- The turn the agent is in, with the passes made of a chat turn. -/
inductive Turn where
  | none
  | running
  | chatting (iterations : Nat)
  deriving DecidableEq

/-- The fields of an agent that the loop reads and writes, and the calls of its model. -/
structure Agent where
  conversation : List Message := []
  status : AgentStatus := .created
  iterationCount : Nat := 0
  consecutiveToolFailures : Nat := 0
  budgetReminderSent : Bool := false
  chatInitialized : Bool := false
  turn : Turn := .none
  calls : List (List Message) := []

structure LLMResponse where
  content : String
  toolCalls : List ToolCall

/-- The message appended for a response: an empty content becomes null. -/
def LLMResponse.rawMessage (response : LLMResponse) : Message :=
  .assistant (if response.content = "" then none else some response.content) response.toolCalls

/-- What `_think` meets when there is a client. -/
structure ModelTurn where
  beforeModelCall : Except Fault HookDecision
  streamFails : Bool
  answer : Except Fault LLMResponse
  afterModelCall : Except Fault HookDecision
  toolNames : List String

inductive Client where
  | absent (lastUser : String)
  | present (modelTurn : ModelTurn)

/-- What one pass of the loop meets. -/
structure Pass where
  compacts : Bool
  observe : Except Fault Unit
  client : Client
  use : ToolUse
  memory : Except Fault Unit

structure RunStart where
  task : String
  onStart : Except Fault Unit
  consults : Bool
  prepare : Except Fault Unit
  memory : Except Fault Unit

structure ChatStart where
  message : String
  initialized : Except Fault Unit
  memory : Except Fault Unit

inductive Thought where
  | toolCall (toolCallId name : String)
  | respond (response : String)

namespace Agent

/-- The model is called, so many times, with the conversation as it is. -/
def callModel (agent : Agent) (times : Nat) : Agent :=
  { agent with calls := agent.calls ++ List.replicate times agent.conversation }

def append (agent : Agent) (message : Message) : Agent :=
  { agent with conversation := agent.conversation ++ [message] }

/-- `_observe`: compaction works on a copy, and may ask the model for a summary. -/
def observe (agent : Agent) (pass : Pass) : Agent × Except Fault Unit :=
  (agent.callModel pass.compacts.toNat, pass.observe)

/-- `_call_llm`: a stream that fails is followed by a plain call. -/
def callLLM (agent : Agent) (modelTurn : ModelTurn) : Agent × Except Fault LLMResponse :=
  (agent.callModel (modelTurn.streamFails.toNat + 1), modelTurn.answer)

end Agent

/-- `_parse_text_tool_calls`: the ids are made up from the names. -/
def parseTextToolCalls (config : AgentConfig) (text : String) (toolNames : List String) :
    Except Fault (List ToolCall) :=
  (config.recognise text toolNames).map fun names =>
    names.map fun name => { id := "call_text_" ++ name, name := name }

/-- The call that `_think` takes from a response: the first one, or one from the text. -/
def chooseToolCall (config : AgentConfig) (response : LLMResponse) (toolNames : List String) :
    Except Fault (Option ToolCall) :=
  match response.toolCalls with
  | call :: _ => .ok (some call)
  | [] =>
      if toolNames = [] ∨ response.content = "" then .ok none
      else (parseTextToolCalls config response.content toolNames).map List.head?

namespace Agent

/-- `_think`. -/
def think (config : AgentConfig) (agent : Agent) (client : Client) :
    Agent × Except Fault Thought :=
  match client with
  | .absent lastUser => (agent, .ok (.respond ("[无LLM客户端] 收到: " ++ lastUser)))
  | .present modelTurn =>
      match modelTurn.beforeModelCall with
      | .error fault => (agent, .error fault)
      | .ok (.block reason) => (agent, .ok (.respond ("[模型调用被拦截] " ++ reason)))
      | .ok _ =>
          match agent.callLLM modelTurn with
          | (agent, .error fault) => (agent, .error fault)
          | (agent, .ok response) =>
              match modelTurn.afterModelCall with
              | .error fault => (agent, .error fault)
              | .ok _ =>
                  let agent := agent.append response.rawMessage
                  match chooseToolCall config response modelTurn.toolNames with
                  | .error fault => (agent, .error fault)
                  | .ok (some call) => (agent, .ok (.toolCall call.id call.name))
                  | .ok none => (agent, .ok (.respond response.content))

/-- Observe, think and act, as `run` and `chat_turn` both do. -/
def react (config : AgentConfig) (agent : Agent) (pass : Pass) :
    Agent × Except Fault (Thought × ActionResult) :=
  match agent.observe pass with
  | (agent, .error fault) => (agent, .error fault)
  | (agent, .ok ()) =>
      match agent.think config pass.client with
      | (agent, .error fault) => (agent, .error fault)
      | (agent, .ok (.respond response)) => (agent, .ok (.respond response, {}))
      | (agent, .ok (.toolCall toolCallId name)) =>
          match act agent.conversation name toolCallId pass.use with
          | (conversation, .ok action) =>
              ({ agent with conversation := conversation }, .ok (.toolCall toolCallId name, action))
          | (conversation, .error fault) =>
              ({ agent with conversation := conversation }, .error fault)

/-- Three failed calls in a row draw a reminder, and the count starts again. -/
def remindOfFailures (agent : Agent) (action : ActionResult) : Agent :=
  if action.success then { agent with consecutiveToolFailures := 0 }
  else
    let failures := agent.consecutiveToolFailures + 1
    if 3 ≤ failures then
      { agent.append (.user ("【系统提示】你已连续 " ++ toString failures ++
          " 次工具调用失败。请停止重复尝试同类调用，立即基于已收集到的信息整理并输出最终结果。")) with
        consecutiveToolFailures := 0 }
    else { agent with consecutiveToolFailures := failures }

/-- Near the last iteration a reminder is sent once. -/
def remindOfBudget (config : AgentConfig) (agent : Agent) : Agent :=
  if config.maxIterations - agent.iterationCount ≤ 2 ∧ agent.budgetReminderSent = false then
    { agent.append (.user ("【系统提示】你已执行 " ++ toString agent.iterationCount ++ "/" ++
        toString config.maxIterations ++ " 轮迭代，剩余轮次不多。" ++
        "请停止扩展新的调研方向，立即基于已有信息整理并输出最终结果。")) with
      budgetReminderSent := true }
  else agent

/-- `_inject_convergence_reminders`. -/
def injectConvergenceReminders (config : AgentConfig) (agent : Agent) (action : ActionResult)
    (willContinue : Bool) : Agent :=
  if willContinue then (agent.remindOfFailures action).remindOfBudget config else agent

/-- The turn is over, in the status. -/
def endTurn (agent : Agent) (status : AgentStatus) : Agent :=
  { agent with status := status, turn := .none }

/-- What `run` catches: a cancelled agent is idle again, any other error is a failure. -/
def runFailed (agent : Agent) (fault : Fault) : Agent :=
  agent.endTurn (if fault.isException then .failed else .idle)

/-- The final answer goes to memory, unless it is empty, and the task is completed. -/
def completeRun (agent : Agent) (response : String) (memory : Except Fault Unit) : Agent :=
  if response = "" then agent.endTurn .completed
  else
    match memory with
    | .ok () => agent.endTurn .completed
    | .error fault => agent.runFailed fault

/-- One pass of the loop of `run`, or its `else` branch when the iterations are used up. -/
def runPass (config : AgentConfig) (agent : Agent) (pass : Pass) : Agent :=
  if agent.iterationCount < config.maxIterations then
    match { agent with iterationCount := agent.iterationCount + 1 }.react config pass with
    | (agent, .error fault) => agent.runFailed fault
    | (agent, .ok (.toolCall _ _, action)) => agent.injectConvergenceReminders config action true
    | (agent, .ok (.respond response, action)) =>
        (agent.injectConvergenceReminders config action false).completeRun response pass.memory
  else agent.endTurn .completed

/-- A chat turn ends idle once its answer, unless empty, is in memory. -/
def endChat (agent : Agent) (response : String) (memory : Except Fault Unit) : Agent :=
  if response = "" then agent.endTurn .idle
  else
    match memory with
    | .ok () => agent.endTurn .idle
    | .error _ => agent.endTurn agent.status

/-- What `chat_turn` makes of an error: it is the answer, but a cancellation is passed on. -/
def chatFailed (agent : Agent) (fault : Fault) (memory : Except Fault Unit) : Agent :=
  if fault.isException then agent.endChat ("处理出错: " ++ fault.text) memory
  else agent.endTurn agent.status

/-- One pass of the loop of `chat_turn`, which sends no reminders. -/
def chatPass (config : AgentConfig) (agent : Agent) (iterations : Nat) (pass : Pass) : Agent :=
  if iterations < config.maxIterations then
    match agent.react config pass with
    | (agent, .error fault) => agent.chatFailed fault pass.memory
    | (agent, .ok (.toolCall _ _, _)) => { agent with turn := .chatting (iterations + 1) }
    | (agent, .ok (.respond response, _)) => agent.endChat response pass.memory
  else agent.endChat "达到最大迭代次数，回复可能不完整。" pass.memory

/-- The system prompt, when there is one, begins every conversation. -/
def opening (config : AgentConfig) : List Message :=
  if config.systemPrompt = "" then [] else [.system config.systemPrompt]

/-- `run`, up to its loop. -/
def startRun (config : AgentConfig) (agent : Agent) (start : RunStart) : Agent :=
  if agent.status = .idle then
    let agent := { agent with status := .running, iterationCount := 0 }
    match start.onStart with
    | .error _ => agent
    | .ok () =>
        -- the self-check asks the model while the last conversation is still in place
        let agent := agent.callModel start.consults.toNat
        match start.prepare with
        | .error _ => agent
        | .ok () =>
            let agent := { agent with conversation := opening config ++ [.user start.task] }
            match start.memory with
            | .error _ => agent
            | .ok () =>
                { agent with
                  consecutiveToolFailures := 0
                  budgetReminderSent := false
                  turn := .running }
  else agent

/-- `_ensure_chat_initialized`: the first chat turn begins a conversation. -/
def ensureChatInitialized (config : AgentConfig) (agent : Agent)
    (initialized : Except Fault Unit) : Except Fault Agent :=
  if agent.chatInitialized then .ok agent
  else
    let begin (status : AgentStatus) : Agent :=
      { agent with
        conversation := opening config
        chatInitialized := true
        status := if status = .idle ∨ status = .running then status else .idle }
    if agent.status = .created then initialized.map fun _ => begin .idle
    else .ok (begin agent.status)

/-- `chat_turn`, up to its loop. -/
def startChat (config : AgentConfig) (agent : Agent) (start : ChatStart) : Agent :=
  match agent.ensureChatInitialized config start.initialized with
  | .error _ => agent
  | .ok agent =>
      let agent := agent.append (.user start.message)
      match start.memory with
      | .error _ => agent
      | .ok () => { agent with turn := .chatting 0 }

inductive Event where
  | setUp (outcome : Except Fault Unit)
  | destroy (outcome : Except Fault Unit)
  | startRun (start : RunStart)
  | startChat (start : ChatStart)
  | pass (pass : Pass)

/-- Turns do not overlap: a turn begins between turns, and a pass is made within one. -/
def step (config : AgentConfig) (agent : Agent) (event : Event) : Agent :=
  match event, agent.turn with
  | .setUp (.ok ()), .none =>
      if agent.status = .created then { agent with status := .idle } else agent
  | .destroy (.ok ()), .none => { agent with status := .destroyed }
  | .startRun start, .none => agent.startRun config start
  | .startChat start, .none => agent.startChat config start
  | .pass pass, .running => agent.runPass config pass
  | .pass pass, .chatting iterations => agent.chatPass config iterations pass
  | _, _ => agent

end Agent

end YouMi.Core
