import YouMi.Core.Delegation
import YouMi.Core.AgentRun
import Mathlib.Data.List.Chain

/-!
# Handing a task to another agent

`HandoffProtocol`: the ways to hand a task over, and `receive_and_process`, which
runs the task at the target and sends the result back.  A chain of handoffs arises
when the run of a receiving agent hands off again; what that run sees of the message
is its content and an id made from the message's.
-/

namespace YouMi.Coordinator

open YouMi.Core YouMi.Bus YouMi.Python

/-- The ways a run hands off, each with what it is called with.  (`_act` has a branch for
`delegate`, but the loops act on tool calls only.) -/
inductive Handoff where
  /-- `Agent.handoff`. -/
  | agent (targetAgentId task messageTemplate : String)
  /-- `HandoffProtocol.handoff`; the target may be registered, and alive. -/
  | protocol (registered alive : Bool) (targetAgentId task : String) (depth : Int)
  /-- `HandoffProtocol.auto_handoff`. -/
  | auto (messageContent task : String)

/-- The payload that reaches `_execute_delegation`, if any does. -/
def Handoff.payload (lower : String → String) (self : BusAgent) :
    Handoff → Option DelegationPayload
  | .agent targetAgentId task messageTemplate =>
      some (handoffPayload targetAgentId task messageTemplate)
  | .protocol registered alive targetAgentId task _ =>
      -- the depth is not passed on
      if registered && alive then some (handoffPayload targetAgentId task "") else none
  | .auto messageContent task =>
      (matchHandoffRule lower self messageContent).map fun rule =>
        { targetAgentId := rule.targetAgentId
          task := if task = "" then messageContent else task
          messageTemplate := rule.messageTemplate
          depth := 0 }

/-! ## The receiving side -/

/-- What `receive_and_process` calls `run` with. -/
structure RunRequest where
  task : String
  taskId : String

def runRequest (message : WorkflowMessage) : RunRequest where
  task := message.content
  taskId := "handoff-" ++ message.messageId

/-- `str` of an output or an error. -/
def printed (value : Option String) : String := value.getD "None"

/-- The reply of `receive_and_process` to a task; a cancelled run sends none. -/
def feedbackMessage (workflowId : String) (typeName : Fault → String) (self : BusAgent)
    (message : WorkflowMessage) (messageId : String) (outcome : Except Fault Core.TaskResult) :
    Option WorkflowMessage :=
  match outcome with
  | .ok result =>
      some
        { messageId
          workflowId
          fromAgentId := self.agentId
          toAgentId := some message.fromAgentId
          msgType := .feedback
          content :=
            if result.success then printed result.output else "FAILED: " ++ printed result.error
          metadata :=
            [("delegation_result", .bool true),
              ("depth", (message.metadata.lookup "depth").getD (.int 0)),
              ("original_agent_id",
                (message.metadata.lookup "original_agent_id").getD (.str message.fromAgentId)),
              ("success", .bool result.success)] }
  | .error fault =>
      if fault.isException then
        some
          { messageId
            workflowId
            fromAgentId := self.agentId
            toAgentId := some message.fromAgentId
            msgType := .feedback
            content := "执行失败: " ++ typeName fault ++ ": " ++ fault.text
            metadata := [("delegation_result", .bool true), ("success", .bool false)] }
      else none

/-- What `receive_and_process` does with the message it gets. -/
inductive Received where
  /-- It returns without a run: nothing came, or a message that is no task. -/
  | ignored
  | ran (reply : Option WorkflowMessage)

/-- `receive_and_process`; `run` is the target's run of the task. -/
def receiveAndProcess (workflowId : String) (typeName : Fault → String) (self : BusAgent)
    (received : Option WorkflowMessage) (messageId : String)
    (run : RunRequest → Except Fault Core.TaskResult) : Received :=
  match received with
  | none => .ignored
  | some message =>
      if self.connected && message.msgType == .task then
        .ran (feedbackMessage workflowId typeName self message messageId (run (runRequest message)))
      else .ignored

/-- The run of a delegated task succeeded. -/
def Succeeded : Except Fault Core.TaskResult → Prop
  | .ok result => result.success = true
  | .error _ => False

variable {workflowId : String} {typeName : Fault → String} {self : BusAgent}
  {message reply : WorkflowMessage} {messageId : String} {outcome : Except Fault Core.TaskResult}

/-- Every reply has the type of a result, also that of a run which failed, and leaves its tenant at
the default. -/
theorem header_feedbackMessage
    (replied : feedbackMessage workflowId typeName self message messageId outcome = some reply) :
    reply.msgType = .feedback ∧ reply.tenant = "default" := by
  unfold feedbackMessage at replied
  split at replied
  · obtain rfl := Option.some.inj replied
    exact ⟨rfl, rfl⟩
  · split at replied
    · obtain rfl := Option.some.inj replied
      exact ⟨rfl, rfl⟩
    · cases replied

/--
Whatever the target replies, the delegating agent reports the delegation as
successful exactly when the run was, if and only if the run was.
-/
theorem success_reported_iff (workflowId messageId : String) (typeName : Fault → String)
    (delegator target : BusAgent) (payload : DelegationPayload)
    (received : Option WorkflowMessage) (run : RunRequest → Except Fault Core.TaskResult)
    (task reply : WorkflowMessage) (came : received = some task)
    (replied : receiveAndProcess workflowId typeName target received messageId run =
      .ran (some reply)) :
    ((endDelegation delegator payload (some reply)).success = true ↔
        Succeeded (run (runRequest task))) ↔
      Succeeded (run (runRequest task)) := by
  subst came
  unfold receiveAndProcess at replied
  dsimp only at replied
  split at replied
  · have type := (header_feedbackMessage (Received.ran.inj replied)).1
    have reported : (endDelegation delegator payload (some reply)).success = true := by
      unfold endDelegation
      dsimp only
      rw [type]
      rfl
    exact iff_of_eq (by rw [reported]; simp)
  · cases replied

/-- A successful run is reported as such. -/
theorem success_reported_for_successful_run :
    ((endDelegation { agentId := "a" } { targetAgentId := "b" } (some
          { messageId := "2", workflowId := "wf", fromAgentId := "b", toAgentId := some "a",
            msgType := .feedback, content := "done",
            metadata := [("delegation_result", .bool true), ("depth", .int 0),
              ("original_agent_id", .str "a"), ("success", .bool true)] })).success = true ↔
        Succeeded (.ok ⟨.completed, some "done", 1, none⟩)) ↔
      Succeeded (.ok ⟨.completed, some "done", 1, none⟩) :=
  success_reported_iff "wf" "2" (fun _ => "RuntimeError") { agentId := "a" } { agentId := "b" }
    { targetAgentId := "b" } (some { messageId := "1", fromAgentId := "a", msgType := .task })
    (fun _ => .ok ⟨.completed, some "done", 1, none⟩)
    { messageId := "1", fromAgentId := "a", msgType := .task } _ rfl rfl

/-- A run that raises is reported as a success. -/
theorem failed_run_reported_as_success :
    ∃ reply,
      receiveAndProcess "wf" (fun _ => "RuntimeError") { agentId := "b" }
          (some { messageId := "1", fromAgentId := "a", msgType := .task }) "2"
          (fun _ => .error (.exception "boom")) = .ran (some reply) ∧
        (endDelegation { agentId := "a" } { targetAgentId := "b" } (some reply)).success = true ∧
        ¬Succeeded (.error (.exception "boom")) :=
  ⟨_, rfl, rfl, id⟩

end YouMi.Coordinator

/-!
## Chains of handoffs

The depth of a delegation should count the handoffs before it in its chain, so that
a chain is cut off at the depth limit.
-/

namespace YouMi.Coordinator

open YouMi.Core YouMi.Bus

/-- A handoff that a run makes: by this agent, in this way, with this message id. -/
structure Hop where
  agent : BusAgent
  way : Handoff
  messageId : String

/-- What `_execute_delegation` sees and does for one handoff of a chain. -/
structure Attempt where
  depth : Int
  maxDepth : Nat
  /-- The message, unless the delegation is refused. -/
  sent : Option WorkflowMessage

section Chain

variable (format : String → String → Except Fault String) (lower : String → String)

/-- The message a delegation publishes, if it gets so far. -/
def DelegationStart.sent : DelegationStart → Option WorkflowMessage
  | .published message => some message
  | _ => none

/-- `none`: the handoff does not reach `_execute_delegation`. -/
def Hop.attempt (hop : Hop) : Option Attempt :=
  (hop.way.payload lower hop.agent).map fun payload =>
    { depth := payload.depth
      maxDepth := hop.agent.handoff.maxDepthFor payload.targetAgentId
      sent := DelegationStart.sent (beginDelegation format hop.agent payload hop.messageId) }

/-- The attempts of a chain, so many at most.  `runs` says for each run of the chain, from the
one numbered `turn` on, which handoff, if any, an agent makes in it for a request. -/
def chain (runs : Nat → String → RunRequest → Option Hop) : Nat → Nat → Hop → List Attempt
  | _, 0, _ => []
  | turn, count + 1, hop =>
      match hop.attempt format lower with
      | none => []
      | some attempt =>
          match attempt.sent with
          | none => [attempt]
          | some message =>
              match runs turn (message.toAgentId.getD "") (runRequest message) with
              | none => [attempt]
              | some next => attempt :: chain runs (turn + 1) count next

end Chain

/-- Each depth is one more than the one before, and no handoff is made at the limit. -/
structure CutOff (attempts : List Attempt) : Prop where
  counted : attempts.IsChain fun first second => second.depth = first.depth + 1
  bounded : ∀ (place : Nat) (attempt : Attempt), attempts[place]? = some attempt →
    attempt.sent ≠ none → place < attempt.maxDepth

/-- The run that receives the handoff makes none that gets as far as a delegation. -/
def HandsOffNoFurther (format : String → String → Except Fault String)
    (lower : String → String) (runs : Nat → String → RunRequest → Option Hop) (hop : Hop) : Prop :=
  ∀ attempt message next, hop.attempt format lower = some attempt →
    attempt.sent = some message →
    runs 0 (message.toAgentId.getD "") (runRequest message) = some next →
    next.attempt format lower = none

variable {format : String → String → Except Fault String} {lower : String → String}
  {runs : Nat → String → RunRequest → Option Hop} {hop : Hop} {attempt : Attempt}

/-- Whichever way a run hands off, the delegation begins at depth zero. -/
theorem depth_of_attempt (tried : hop.attempt format lower = some attempt) :
    attempt.depth = 0 := by
  obtain ⟨payload, reaches, rfl⟩ := Option.map_eq_some_iff.mp tried
  unfold Handoff.payload at reaches
  dsimp only
  split at reaches
  · rw [← Option.some.inj reaches]
    rfl
  · split at reaches
    · rw [← Option.some.inj reaches]
      rfl
    · cases reaches
  · obtain ⟨rule, _, rfl⟩ := Option.map_eq_some_iff.mp reaches
    rfl

theorem maxDepth_pos (tried : hop.attempt format lower = some attempt) : 0 < attempt.maxDepth := by
  obtain ⟨payload, _, rfl⟩ := Option.map_eq_some_iff.mp tried
  exact one_le_maxDepthFor _ _

theorem cutOff_singleton (tried : hop.attempt format lower = some attempt) : CutOff [attempt] where
  counted := List.isChain_singleton attempt
  bounded place other found _ := by
    cases place with
    | zero =>
        rw [← Option.some.inj found]
        exact maxDepth_pos tried
    | succ place => cases found

/-- The first attempts of a chain from a handoff whose receiver hands off no further. -/
theorem cutOff_chain (stops : HandsOffNoFurther format lower runs hop) (count : Nat) :
    CutOff (chain format lower runs 0 count hop) := by
  have none_made : CutOff [] := ⟨List.isChain_nil, fun _ _ found => nomatch found⟩
  cases count with
  | zero => exact none_made
  | succ count =>
      unfold chain
      cases tried : hop.attempt format lower with
      | none => exact none_made
      | some attempt =>
          dsimp only
          cases sent : attempt.sent with
          | none => exact cutOff_singleton tried
          | some message =>
              dsimp only
              cases further : runs 0 (message.toAgentId.getD "") (runRequest message) with
              | none => exact cutOff_singleton tried
              | some next =>
                  have ends : chain format lower runs 1 count next = [] := by
                    cases count with
                    | zero => rfl
                    | succ count =>
                        unfold chain
                        rw [stops attempt message next tried sent further]
                  dsimp only
                  rw [ends]
                  exact cutOff_singleton tried

/--
A chain of handoffs is counted and cut off, however far it is followed, exactly
if the run that receives the first handoff makes no further one.
-/
theorem chain_cutOff_iff (format : String → String → Except Fault String)
    (lower : String → String) (runs : Nat → String → RunRequest → Option Hop) (hop : Hop) :
    (∀ count, CutOff (chain format lower runs 0 count hop)) ↔
      HandsOffNoFurther format lower runs hop := by
  constructor
  · intro cut attempt message next tried sent further
    cases again : next.attempt format lower with
    | none => rfl
    | some second =>
        obtain ⟨rest, followed⟩ : ∃ rest, chain format lower runs 1 1 next = second :: rest := by
          unfold chain
          rw [again]
          dsimp only
          split
          · exact ⟨[], rfl⟩
          · split
            · exact ⟨[], rfl⟩
            · exact ⟨_, rfl⟩
        have two : chain format lower runs 0 2 hop = attempt :: second :: rest := by
          rw [← followed]
          conv_lhs => unfold chain
          rw [tried]
          dsimp only
          rw [sent]
          dsimp only
          rw [further]
        have counted := (cut 2).counted
        rw [two] at counted
        have next_depth := (List.isChain_cons_cons.mp counted).1
        rw [depth_of_attempt again, depth_of_attempt tried] at next_depth
        exact absurd next_depth (by decide)
  · exact cutOff_chain

/-- Two agents that hand the task back and forth are not stopped by a limit of one handoff. -/
theorem handed_back_and_forth :
    let config : HandoffConfig := { enabled := true, defaultMaxDepth := 1 }
    let handsBack (_ : Nat) (agentId : String) (_ : RunRequest) : Option Hop :=
      some ⟨{ agentId, handoff := config },
        .agent (if agentId = "a" then "b" else "a") "task" "", "m"⟩
    ¬∀ count, CutOff (chain (fun template _ => .ok template) id handsBack 0 count
      ⟨{ agentId := "a", handoff := config }, .agent "b" "task" "", "m"⟩) := by
  intro config handsBack cut
  have counted := (List.isChain_cons_cons.mp (cut 2).counted).1
  exact absurd counted (by decide)

end YouMi.Coordinator
