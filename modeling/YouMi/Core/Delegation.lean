import Mathlib.Data.List.Infix
import YouMi.Core.ToolExecutor
import YouMi.Bus.Message

/-!
# Delegations and tool requests

`_execute_delegation` and `request_tool` publish one message and take the next one
that arrives as the reply.  Each is two functions here: what is published, and what
is made of the message that is handed over, `none` when the wait times out.
`format` is `template.format(task=task)`.
-/

namespace YouMi.Core

open YouMi.Bus YouMi.Python

structure HandoffRule where
  targetAgentId : String
  triggerKeywords : List String := []
  messageTemplate : String := "请将以下任务完成:\n\x7btask\x7d"
  maxDepth : Nat := 3
  enabled : Bool := true
  depth_bounds : 1 ≤ maxDepth ∧ maxDepth ≤ 10 := by decide

structure HandoffConfig where
  enabled : Bool := false
  rules : List HandoffRule := []
  defaultMaxDepth : Nat := 3
  /-- `timeout_seconds`, as it is printed. -/
  timeoutSeconds : String := "120"
  depth_bounds : 1 ≤ defaultMaxDepth ∧ defaultMaxDepth ≤ 10 := by decide

/-- The fields of an agent that a delegation reads. -/
structure BusAgent where
  agentId : String
  workflowId : String := ""
  connected : Bool := true
  handoff : HandoffConfig := {}

structure DelegationPayload where
  targetAgentId : String := ""
  task : String := ""
  depth : Int := 0
  messageTemplate : String := "请将以下任务完成:\n\x7btask\x7d"
  originalAgentId : Option String := none

/-- The depth limit for a target: that of its first enabled rule, if it is lower. -/
def HandoffConfig.maxDepthFor (config : HandoffConfig) (targetAgentId : String) : Nat :=
  match config.rules.find? fun rule => rule.targetAgentId == targetAgentId && rule.enabled with
  | some rule => min config.defaultMaxDepth rule.maxDepth
  | none => config.defaultMaxDepth

/-- How a delegation begins. -/
inductive DelegationStart where
  | refused (result : ActionResult)
  | raised (fault : Fault)
  | published (message : WorkflowMessage)

section

variable (format : String → String → Except Fault String)

/-- `_execute_delegation`, up to its wait. -/
def beginDelegation (self : BusAgent) (payload : DelegationPayload) (messageId : String) :
    DelegationStart :=
  if payload.targetAgentId = "" then
    .refused { success := false, error := "delegation 未指定 target_agent_id" }
  else
    let maxDepth := self.handoff.maxDepthFor payload.targetAgentId
    if payload.depth ≥ maxDepth then
      .refused { success := false
                 error := "委派链深度已达上限 (" ++ toString maxDepth ++ ")，拒绝进一步委派" }
    else
      match format payload.messageTemplate payload.task with
      | .error fault => .raised fault
      | .ok delegatedTask =>
          if self.connected then
            .published
              { messageId
                workflowId := self.workflowId
                fromAgentId := self.agentId
                toAgentId := some payload.targetAgentId
                msgType := .task
                content := delegatedTask
                metadata :=
                  [("delegation", .bool true), ("depth", .int (payload.depth + 1)),
                    ("original_agent_id", .str (payload.originalAgentId.getD self.agentId))] }
          else
            .refused { success := false, error := "未连接消息总线，无法执行 Agent 间委派" }

end

/-- `_execute_delegation`, from its wait on. -/
def endDelegation (self : BusAgent) (payload : DelegationPayload)
    (feedback : Option WorkflowMessage) : ActionResult :=
  match feedback with
  | none =>
      { success := false
        error := "委派超时 (" ++ self.handoff.timeoutSeconds ++ "s): 未收到 '" ++
          payload.targetAgentId ++ "' 的反馈" }
  | some feedback =>
      let success := feedback.msgType == .feedback
      { success
        output := feedback.content
        error := if success then "" else "委派失败: " ++ feedback.content }

/-- What `request_tool` publishes; the payload is the JSON text of the request. -/
def toolRequestMessage (self : BusAgent) (requestPayload messageId : String) :
    WorkflowMessage :=
  { messageId
    workflowId := self.workflowId
    fromAgentId := self.agentId
    toAgentId := none
    msgType := .toolRequest
    content := requestPayload
    metadata := [("request_type", .str "tool_extension")] }

/-- What `request_tool` returns; `approved` reads that entry of the JSON text of a response. -/
def endToolRequest (approved : String → Except Fault Bool) (response : Option WorkflowMessage) :
    Bool :=
  match response with
  | none => false
  | some response =>
      if response.msgType = .toolResponse then
        match approved response.content with
        | .ok answer => answer
        | .error _ => false
      else false

/-- `Agent.handoff`. -/
def handoffPayload (targetAgentId task messageTemplate : String) : DelegationPayload :=
  { targetAgentId, task, messageTemplate, depth := 0 }

section

variable (lower : String → String)

/-- `kw.lower() in content_lower`. -/
def mentions (content keyword : String) : Bool :=
  decide ((lower keyword).toList <:+: (lower content).toList)

/-- `match_handoff_rule`; `lower` is `str.lower`. -/
def matchHandoffRule (self : BusAgent) (messageContent : String) : Option HandoffRule :=
  if self.handoff.enabled then
    self.handoff.rules.find? fun rule =>
      rule.enabled && rule.triggerKeywords.any (mentions lower messageContent)
  else none

end

variable {format : String → String → Except Fault String} {self : BusAgent}
  {payload : DelegationPayload} {messageId : String} {message : WorkflowMessage}

theorem one_le_maxDepthFor (config : HandoffConfig) (targetAgentId : String) :
    1 ≤ config.maxDepthFor targetAgentId := by
  unfold HandoffConfig.maxDepthFor
  split
  · rename_i rule _
    exact Nat.le_min.mpr ⟨config.depth_bounds.1, rule.depth_bounds.1⟩
  · exact config.depth_bounds.1

/-- A message is published for a target below its depth limit, with the formatted task. -/
theorem beginDelegation_published
    (published : beginDelegation format self payload messageId = .published message) :
    payload.targetAgentId ≠ "" ∧ payload.depth < self.handoff.maxDepthFor payload.targetAgentId ∧
      self.connected = true ∧ ∃ delegatedTask,
        format payload.messageTemplate payload.task = .ok delegatedTask ∧ message =
          { messageId
            workflowId := self.workflowId
            fromAgentId := self.agentId
            toAgentId := some payload.targetAgentId
            msgType := .task
            content := delegatedTask
            metadata :=
              [("delegation", .bool true), ("depth", .int (payload.depth + 1)),
                ("original_agent_id", .str (payload.originalAgentId.getD self.agentId))] } := by
  unfold beginDelegation at published
  split at published
  · cases published
  · rename_i named
    dsimp only at published
    split at published
    · cases published
    · rename_i below
      split at published
      · cases published
      · rename_i delegatedTask formatted
        split at published
        · rename_i connected
          exact ⟨named, Int.not_le.mp below, connected, delegatedTask, formatted,
            (DelegationStart.published.inj published).symm⟩
        · cases published

end YouMi.Core
