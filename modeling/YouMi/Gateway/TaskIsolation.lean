import YouMi.Core.AgentRun
import YouMi.Core.ReactLaws

/-!
# Two tasks of one master

`MasterTaskExecutor.execute` resets its master before every task but the first, and the
task is a chat turn.  The reset clears what the master coordinates and leaves the
conversation of its chat, which the next chat turn goes on with.  Memory is written by
both tasks and is no part of the messages of a chat turn.
-/

namespace YouMi.Gateway

open YouMi.Core

/-- The fields that `reset_for_new_task` touches, beside those of the agent. -/
structure MasterAgent where
  agent : Agent
  subAgents : List String := []
  pendingToolRequests : List String := []
  manualReviewQueue : List String := []
  listening : Bool := false

/-- `reset_for_new_task`; the end of a sub-process may fail. -/
def MasterAgent.resetForNewTask (master : MasterAgent) (terminated : Except Fault Unit) :
    MasterAgent × Except Fault Unit :=
  match terminated with
  | .error fault => ({ master with listening := false }, .error fault)
  | .ok () =>
      let status := if master.agent.status = .destroyed then .destroyed else .idle
      ({ agent := { master.agent with status := status } }, .ok ())

/--
What `_observe` makes of a conversation: the text assembled of several prompt layers
takes the place of the system prompt, a `before_prompt_build` hook may change the
messages, and the compactor may replace the older ones.
-/
structure PromptState where
  assembled : Option String := none
  hook : Option (List Message → List Message) := none
  compactor : Option (List Message → List Message) := none

namespace PromptState

def reassemble (prompt : PromptState) (conversation : List Message) : List Message :=
  match prompt.assembled, conversation with
  | some text, .system _ :: rest => .system text :: rest
  | _, _ => conversation

def messages (prompt : PromptState) (conversation : List Message) : List Message :=
  prompt.compactor.getD id (prompt.hook.getD id (prompt.reassemble conversation))

/-- One layer, no hook, and nothing to compact. -/
structure Plain (prompt : PromptState) : Prop where
  assembled : prompt.assembled = none
  hook : prompt.hook = none
  compactor : prompt.compactor = none

theorem Plain.messages {prompt : PromptState} (plain : prompt.Plain)
    (conversation : List Message) : prompt.messages conversation = conversation := by
  unfold PromptState.messages reassemble
  rw [plain.assembled, plain.hook, plain.compactor]
  rfl

end PromptState

/-- The conversation that a chat turn adds its message to. -/
def begun (config : AgentConfig) (agent : Agent) : List Message :=
  if agent.chatInitialized = true then agent.conversation else Agent.opening config

/-- A task: what it asks, what its turn meets, and what it leaves of the prompt. -/
structure MasterTask where
  /-- What the sub-processes say to the reset before the task. -/
  terminated : Except Fault Unit := .ok ()
  start : ChatStart
  passes : Nat → Pass
  leaves : PromptState := {}

/-- The loop of `chat_turn`. -/
def chatLoop (config : AgentConfig) (passes : Nat → Pass) : Nat → Agent → Agent
  | 0, agent => agent
  | left + 1, agent =>
      match agent.turn with
      | .chatting iterations =>
          chatLoop config passes left (agent.chatPass config iterations (passes iterations))
      | _ => agent

/-- `chat_turn`: the last pass is the `else` branch of the loop. -/
def chatTurn (config : AgentConfig) (agent : Agent) (task : MasterTask) : Agent :=
  chatLoop config task.passes (config.maxIterations + 1) (agent.startChat config task.start)

/-- An executor and the master that serves its tasks. -/
structure MasterServer where
  master : MasterAgent
  resetBetweenTasks : Bool := true
  executedAny : Bool := false

namespace MasterServer

/-- `execute`, up to the chat turn: `_safe_reset` ignores exceptions, not a cancellation. -/
def prepare (s : MasterServer) (task : MasterTask) : Except Fault MasterServer :=
  let (master, outcome) :=
    if s.resetBetweenTasks && s.executedAny then s.master.resetForNewTask task.terminated
    else (s.master, .ok ())
  let prepared := { s with master := master, executedAny := true }
  match outcome with
  | .ok () => .ok prepared
  | .error fault => if fault.isException then .ok prepared else .error fault

def execute (config : AgentConfig) (s : MasterServer) (task : MasterTask) : MasterServer :=
  match s.prepare task with
  | .error _ => s
  | .ok s => { s with
      master := { s.master with agent := chatTurn config s.master.agent task } }

/-- The conversation with which the model is called first, if the turn gets so far. -/
def initialConversation (config : AgentConfig) (s : MasterServer) (task : MasterTask) :
    Option (List Message) :=
  match s.prepare task with
  | .error _ => none
  | .ok s =>
      let agent := s.master.agent
      match agent.ensureChatInitialized config task.start.initialized, task.start.memory with
      | .ok _, .ok () => some (agent.startChat config task.start).conversation
      | _, _ => none

/-- The messages of the first call of the model in the second task. -/
def secondMessages (config : AgentConfig) (s : MasterServer) (first second : MasterTask) :
    Option (List Message) :=
  ((s.execute config first).initialConversation config second).map first.leaves.messages

/-- Two runs that differ in the first task give the second task the same messages. -/
def Isolated (config : AgentConfig) (s : MasterServer) (first other second : MasterTask) : Prop :=
  s.secondMessages config first second = s.secondMessages config other second

/-- The conversation that a task leaves for the next one to go on with. -/
def kept (config : AgentConfig) (s : MasterServer) (task : MasterTask) : List Message :=
  begun config (s.execute config task).master.agent

end MasterServer

/-- The reset lets the task begin, and memory takes its text. -/
def MasterTask.Starts (task : MasterTask) : Prop :=
  (∀ fault, task.terminated = .error fault → fault.isException = true) ∧
    task.start.memory = .ok ()

/-! ## What a chat turn does to the conversation -/

/-- The agent has been initialised, so a chat turn begins without fail. -/
def Ready (agent : Agent) : Prop := agent.chatInitialized = true ∨ agent.status ≠ .created

/-- The conversation goes on, and the chat is as initialised as before. -/
def Continues (before after : Agent) : Prop :=
  before.conversation <+: after.conversation ∧ after.chatInitialized = before.chatInitialized

section Turn

variable {config : AgentConfig} {agent : Agent} {first other second task : MasterTask}
  {s : MasterServer}

theorem Continues.refl (agent : Agent) : Continues agent agent := ⟨List.prefix_rfl, rfl⟩

theorem Continues.trans {one two three : Agent} (before : Continues one two)
    (after : Continues two three) : Continues one three :=
  ⟨before.1.trans after.1, after.2.trans before.2⟩

theorem react_continues (config : AgentConfig) (agent : Agent) (pass : Pass) :
    Continues agent (agent.react config pass).1 := by
  refine ⟨?_, ?_⟩
  · by_cases answered : ∃ response, pass.observe = .ok () ∧ pass.client.heard = some response
    · obtain ⟨⟨response, toolNames⟩, seen, heard⟩ := answered
      obtain ⟨toolCallId, contents, appended, _⟩ :=
        Agent.react_of_heard config agent seen heard
      exact ⟨_, appended.symm⟩
    · have unheard : ∀ response, pass.observe = .ok () → pass.client.heard ≠ some response :=
        fun response seen heard => answered ⟨response, seen, heard⟩
      exact (Agent.react_of_unheard config agent unheard).symm ▸ List.prefix_rfl
  · obtain ⟨conversation, calls, same⟩ := Agent.react_sameBut config agent pass
    rw [same]

theorem endChat_continues (agent : Agent) (response : String) (memory : Except Fault Unit) :
    Continues agent (agent.endChat response memory) := by
  unfold Agent.endChat
  split
  · exact .refl agent
  · split
    · exact .refl agent
    · exact .refl agent

theorem chatPass_continues (config : AgentConfig) (agent : Agent) (iterations : Nat)
    (pass : Pass) : Continues agent (agent.chatPass config iterations pass) := by
  unfold Agent.chatPass
  split
  · have reacted := react_continues config agent pass
    cases result : agent.react config pass with
    | mk after outcome =>
        rw [result] at reacted
        cases outcome with
        | error fault =>
            dsimp only
            unfold Agent.chatFailed
            split
            · exact reacted.trans (endChat_continues after _ pass.memory)
            · exact reacted
        | ok thought =>
            obtain ⟨thought, action⟩ := thought
            cases thought with
            | toolCall toolCallId name => exact reacted
            | respond response => exact reacted.trans (endChat_continues after _ pass.memory)
  · exact endChat_continues agent _ pass.memory

theorem chatLoop_continues (config : AgentConfig) (passes : Nat → Pass) (left : Nat)
    (agent : Agent) : Continues agent (chatLoop config passes left agent) := by
  induction left generalizing agent with
  | zero => exact .refl agent
  | succ left ih =>
      unfold chatLoop
      split
      · exact (chatPass_continues config agent _ _).trans (ih _)
      · exact .refl agent

/-- The conversation of a chat turn begins where the last one ended, or anew. -/
theorem ensureChatInitialized_of_ready (config : AgentConfig) (ready : Ready agent)
    (initialized : Except Fault Unit) :
    ∃ after, agent.ensureChatInitialized config initialized = .ok after ∧
      after.conversation = begun config agent ∧ after.chatInitialized = true := by
  unfold Agent.ensureChatInitialized begun
  by_cases done : agent.chatInitialized = true
  · rw [if_pos done, if_pos done]
    exact ⟨agent, rfl, rfl, done⟩
  · have initialised : agent.status ≠ .created := ready.resolve_left done
    rw [if_neg done, if_neg done]
    dsimp only
    rw [if_neg initialised]
    exact ⟨_, rfl, rfl, rfl⟩

theorem startChat_of_ready (config : AgentConfig) (ready : Ready agent) (start : ChatStart) :
    (agent.startChat config start).conversation =
        begun config agent ++ [.user start.message] ∧
      (agent.startChat config start).chatInitialized = true := by
  obtain ⟨after, ensured, conversation, chatInitialized⟩ :=
    ensureChatInitialized_of_ready config ready start.initialized
  unfold Agent.startChat
  rw [ensured, ← conversation]
  dsimp only
  cases start.memory with
  | error fault => exact ⟨rfl, chatInitialized⟩
  | ok done => exact ⟨rfl, chatInitialized⟩

/-- After a chat turn the conversation has its text, and what was said of it. -/
theorem chatTurn_of_ready (ready : Ready agent) (task : MasterTask) :
    begun config agent ++ [.user task.start.message] <+:
        begun config (chatTurn config agent task) ∧ Ready (chatTurn config agent task) := by
  obtain ⟨conversation, chatInitialized⟩ :=
    startChat_of_ready config ready task.start
  obtain ⟨extended, still⟩ := chatLoop_continues config task.passes (config.maxIterations + 1)
    (agent.startChat config task.start)
  have done : (chatTurn config agent task).chatInitialized = true :=
    still.trans chatInitialized
  refine ⟨?_, .inl done⟩
  rw [← conversation]
  unfold begun
  rw [if_pos done]
  exact extended

/-! ## What the reset leaves -/

theorem ready_resetForNewTask (config : AgentConfig) {master : MasterAgent}
    (ready : Ready master.agent) (terminated : Except Fault Unit) :
    Ready (master.resetForNewTask terminated).1.agent ∧
      begun config (master.resetForNewTask terminated).1.agent = begun config master.agent := by
  unfold MasterAgent.resetForNewTask
  cases terminated with
  | error fault => exact ⟨ready, rfl⟩
  | ok done =>
      refine ⟨.inr ?_, rfl⟩
      change (if master.agent.status = .destroyed then _ else _) ≠ AgentStatus.created
      split
      · exact fun same => AgentStatus.noConfusion same
      · exact fun same => AgentStatus.noConfusion same

/-- A task begins with the conversation that was left, unless its reset is cancelled. -/
theorem prepare_cases (config : AgentConfig) (ready : Ready s.master.agent) (task : MasterTask) :
    (∃ master, s.prepare task = .ok { s with master := master, executedAny := true } ∧
      Ready master.agent ∧ begun config master.agent = begun config s.master.agent) ∨
    ∃ fault, s.prepare task = .error fault ∧ s.executedAny = true ∧
      task.terminated = .error fault ∧ fault.isException = false := by
  unfold MasterServer.prepare
  by_cases resets : (s.resetBetweenTasks && s.executedAny) = true
  · have executed : s.executedAny = true := (Bool.and_eq_true _ _ ▸ resets).2
    have left := ready_resetForNewTask config ready task.terminated
    rw [if_pos resets]
    cases terminated : task.terminated with
    | ok done =>
        rw [terminated] at left
        exact .inl ⟨_, rfl, left⟩
    | error fault =>
        rw [terminated] at left
        dsimp only [MasterAgent.resetForNewTask]
        by_cases ignored : fault.isException = true
        · rw [if_pos ignored]
          exact .inl ⟨_, rfl, left⟩
        · rw [if_neg ignored]
          exact .inr ⟨fault, rfl, executed, rfl, Bool.eq_false_iff.mpr ignored⟩
  · rw [if_neg resets]
    exact .inl ⟨_, rfl, ready, rfl⟩

/-- The first task sees to it that the next one is reset, and leaves the chat begun. -/
theorem execute_leaves (config : AgentConfig) (ready : Ready s.master.agent) (task : MasterTask) :
    (s.execute config task).executedAny = true ∧
      (s.execute config task).resetBetweenTasks = s.resetBetweenTasks ∧
      Ready (s.execute config task).master.agent := by
  unfold MasterServer.execute
  rcases prepare_cases config ready task with
    ⟨master, prepared, still, _⟩ | ⟨fault, prepared, executed, _⟩
  · rw [prepared]
    exact ⟨rfl, rfl, (chatTurn_of_ready still task).2⟩
  · rw [prepared]
    exact ⟨executed, rfl, ready⟩

/-- A task that can begin goes on with the conversation that was left. -/
theorem initialConversation_of_starts (config : AgentConfig) (ready : Ready s.master.agent)
    (starts : second.Starts) :
    s.initialConversation config second =
      some (begun config s.master.agent ++ [.user second.start.message]) := by
  obtain ⟨resets, stored⟩ := starts
  unfold MasterServer.initialConversation
  rcases prepare_cases config ready second with
    ⟨master, prepared, still, same⟩ | ⟨fault, _, _, terminated, cancelled⟩
  · obtain ⟨agent, ensured, _⟩ :=
      ensureChatInitialized_of_ready config still second.start.initialized
    rw [prepared]
    dsimp only
    rw [ensured, stored]
    dsimp only
    rw [(startChat_of_ready config still second.start).1, same]
  · rw [resets fault terminated] at cancelled
    cases cancelled

theorem prepare_of_cancelled (on : s.resetBetweenTasks = true) (executed : s.executedAny = true)
    {fault : Fault} (terminated : task.terminated = .error fault)
    (cancelled : fault.isException = false) : s.prepare task = .error fault := by
  unfold MasterServer.prepare MasterAgent.resetForNewTask
  simp [on, executed, terminated, cancelled]

/-- A task that cannot begin never gets to the model. -/
theorem initialConversation_of_not_starts (on : s.resetBetweenTasks = true)
    (executed : s.executedAny = true) (stuck : ¬second.Starts) :
    s.initialConversation config second = none := by
  unfold MasterServer.initialConversation
  cases prepared : s.prepare second with
  | error fault => rfl
  | ok after =>
      cases stored : second.start.memory with
      | error fault =>
          dsimp only
          cases after.master.agent.ensureChatInitialized config second.start.initialized with
          | error fault => rfl
          | ok agent => rfl
      | ok done =>
          refine absurd ⟨fun fault terminated => ?_, stored⟩ stuck
          by_contra cancelled
          have failed := prepare_of_cancelled on executed terminated
            (Bool.eq_false_iff.mpr cancelled)
          rw [prepared] at failed
          cases failed

/-! ## Whether the second task sees the first -/

theorem secondMessages_of_starts (config : AgentConfig) (ready : Ready s.master.agent)
    (first : MasterTask) (starts : second.Starts) :
    s.secondMessages config first second =
      some (first.leaves.messages (s.kept config first ++ [.user second.start.message])) := by
  unfold MasterServer.secondMessages
  rw [initialConversation_of_starts config (execute_leaves config ready first).2.2 starts]
  rfl

theorem secondMessages_of_not_starts (on : s.resetBetweenTasks = true)
    (ready : Ready s.master.agent) (first : MasterTask) (stuck : ¬second.Starts) :
    s.secondMessages config first second = none := by
  obtain ⟨executed, still, _⟩ := execute_leaves config ready first
  unfold MasterServer.secondMessages
  rw [initialConversation_of_not_starts (still.trans on) executed stuck]
  rfl

/-- What a task leaves begins with what it found and its own text. -/
theorem kept_of_prepared (config : AgentConfig) (ready : Ready s.master.agent)
    (task : MasterTask) (prepared : ∃ after, s.prepare task = .ok after) :
    begun config s.master.agent ++ [.user task.start.message] <+: s.kept config task := by
  obtain ⟨after, prepared⟩ := prepared
  unfold MasterServer.kept MasterServer.execute
  rcases prepare_cases config ready task with
    ⟨master, same, still, left⟩ | ⟨fault, failed, _⟩
  · rw [same, ← left]
    exact (chatTurn_of_ready still task).1
  · rw [prepared] at failed
    cases failed

/-- The messages of two tasks with different texts part where the texts stand. -/
theorem kept_ne (config : AgentConfig) (ready : Ready s.master.agent)
    (differ : first.start.message ≠ other.start.message)
    (prepared : ∃ after, s.prepare first = .ok after)
    (prepared' : ∃ after, s.prepare other = .ok after) :
    s.kept config first ≠ s.kept config other := by
  intro same
  have one := kept_of_prepared config ready first prepared
  have two := kept_of_prepared config ready other prepared'
  rw [same] at one
  have both := (List.prefix_of_prefix_length_le one two (by simp)).eq_of_length (by simp)
  exact differ (Message.user.inj (List.cons.inj (List.append_cancel_left both)).1)

end Turn

/--
The second task gets the same messages in both runs exactly if the conversations that the
first tasks leave are made the same by the prompt layers, a hook or the compactor.  Where
nothing changes the messages, the first tasks must have left the same conversation, which
two tasks that begin with different texts never do.
-/
theorem isolated_iff (config : AgentConfig) (s : MasterServer) (on : s.resetBetweenTasks = true)
    (initialised : s.master.agent.status ≠ .created) (first other second : MasterTask) :
    (s.Isolated config first other second ↔
      (second.Starts →
        first.leaves.messages (s.kept config first ++ [.user second.start.message]) =
          other.leaves.messages (s.kept config other ++ [.user second.start.message]))) ∧
    (second.Starts → first.leaves.Plain → other.leaves.Plain →
      (s.Isolated config first other second ↔ s.kept config first = s.kept config other)) ∧
    (first.start.message ≠ other.start.message → (∃ after, s.prepare first = .ok after) →
      (∃ after, s.prepare other = .ok after) → s.kept config first ≠ s.kept config other) := by
  have ready : Ready s.master.agent := .inr initialised
  have same_iff : s.Isolated config first other second ↔ (second.Starts →
      first.leaves.messages (s.kept config first ++ [.user second.start.message]) =
        other.leaves.messages (s.kept config other ++ [.user second.start.message])) := by
    unfold MasterServer.Isolated
    constructor
    · intro same starts
      rw [secondMessages_of_starts config ready first starts,
        secondMessages_of_starts config ready other starts] at same
      exact Option.some.inj same
    · intro same
      by_cases starts : second.Starts
      · rw [secondMessages_of_starts config ready first starts,
          secondMessages_of_starts config ready other starts, same starts]
      · rw [secondMessages_of_not_starts on ready first starts,
          secondMessages_of_not_starts on ready other starts]
  refine ⟨same_iff, fun starts plain plain' => ?_, kept_ne config ready⟩
  rw [same_iff, plain.messages, plain'.messages]
  constructor
  · exact fun same => List.append_cancel_right (same starts)
  · exact fun same _ => by rw [same]

/-- A task with a text that an agent without a model echoes. -/
def echoTask (text : String) : MasterTask where
  start := { message := text, initialized := .ok (), memory := .ok () }
  passes := fun _ =>
    { compacts := false, observe := .ok (), client := .absent text,
      use := smoothUse [] "", memory := .ok () }

/-- An executor whose master is initialised. -/
def idleServer : MasterServer := { master := { agent := { status := .idle } } }

theorem isolated_iff_echo :
    idleServer.kept plainConfig (echoTask "a") ≠ idleServer.kept plainConfig (echoTask "b") :=
  (isolated_iff plainConfig idleServer rfl (by decide) (echoTask "a") (echoTask "b")
    (echoTask "c")).2.2 (by decide) ⟨_, rfl⟩ ⟨_, rfl⟩

/-- The second task is shown the text of the first. -/
theorem first_task_shown :
    ¬∀ (config : AgentConfig) (s : MasterServer), s.resetBetweenTasks = true →
      s.master.agent.status ≠ .created → ∀ first other second : MasterTask,
        s.Isolated config first other second := by
  intro always
  have same := always plainConfig idleServer rfl (by decide) (echoTask "a") (echoTask "b")
    (echoTask "c")
  unfold MasterServer.Isolated at same
  exact absurd same (by decide)

end YouMi.Gateway
