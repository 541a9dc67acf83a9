import YouMi.Core.ReactLoop
import Mathlib.Tactic.ByContra

/-!
# A whole run

`Agent.run` from its call to its return or its exception: the checks and awaits
before the loop, the loop, and the two hooks after it.  What the hooks, the memory,
the model and the tools do at each await is an input; each may throw or be
cancelled.
-/

namespace YouMi.Core

/-- The text of a status. -/
def AgentStatus.value : AgentStatus → String
  | .created => "created"
  | .idle => "idle"
  | .running => "running"
  | .waiting => "waiting"
  | .completed => "completed"
  | .failed => "failed"
  | .destroyed => "destroyed"

/-- What `run` returns, without the ids and times it copies. -/
structure TaskResult where
  status : AgentStatus
  output : Option String
  iterations : Nat
  error : Option String

def TaskResult.success (result : TaskResult) : Bool := result.status == .completed

/-- What one call of `run` meets. -/
structure RunInput where
  /-- The name of the agent. -/
  name : String
  start : RunStart
  /-- The pass that is made when so many iterations are done. -/
  passes : Nat → Pass
  /-- `type(exc).__name__`. -/
  typeName : Fault → String
  onStop : Except Fault Unit
  onSessionEnd : Except Fault Unit

/-- What the awaits before the loop throw. -/
def RunStart.fault (start : RunStart) : Option Fault :=
  match start.onStart, start.prepare, start.memory with
  | .error fault, _, _ => some fault
  | .ok (), .error fault, _ => some fault
  | .ok (), .ok (), .error fault => some fault
  | .ok (), .ok (), .ok () => none

/-- How the `try` block ends: with the final output, and with what was thrown in it. -/
structure LoopEnd where
  output : Option String
  fault : Option Fault

namespace Agent

/-- The loop after one pass: `none` goes on. -/
def passEnd (config : AgentConfig) (agent : Agent) (pass : Pass) : Option LoopEnd :=
  match ({ agent with iterationCount := agent.iterationCount + 1 }.react config pass).2 with
  | .error fault => some { output := none, fault := some fault }
  | .ok (.toolCall _ _, _) => none
  | .ok (.respond response, _) =>
      if response = "" then some { output := some response, fault := none }
      else
        match pass.memory with
        | .ok () => some { output := some response, fault := none }
        | .error fault => some { output := some response, fault := some fault }

/-- The loop, with so many iterations left, up to its `else` branch. -/
def runLoop (config : AgentConfig) (passes : Nat → Pass) : Nat → Agent → Agent × LoopEnd
  | 0, agent =>
      (agent.endTurn .completed,
        { output := some ("达到最大迭代次数 (" ++ toString config.maxIterations ++ ")，任务可能未完成。")
          fault := none })
  | left + 1, agent =>
      let pass := passes agent.iterationCount
      let after := agent.runPass config pass
      match agent.passEnd config pass with
      | some ended => (after, ended)
      | none => runLoop config passes left after

/-- `run` after its `try` block: a cancellation is passed on, and the hooks come last. -/
def finishRun (input : RunInput) (agent : Agent) (ended : LoopEnd) :
    Agent × Except Fault TaskResult :=
  let result : TaskResult :=
    { status := agent.status
      output := ended.output
      iterations := agent.iterationCount
      error := ended.fault.map fun fault => input.typeName fault ++ ": " ++ fault.text }
  let hooks : Except Fault TaskResult :=
    match input.onStop, input.onSessionEnd with
    | .error fault, _ => .error fault
    | .ok (), .error fault => .error fault
    | .ok (), .ok () => .ok result
  match ended.fault with
  | some fault => if fault.isException then (agent, hooks) else (agent, .error fault)
  | none => (agent, hooks)

/-- `run`. -/
def runTask (config : AgentConfig) (agent : Agent) (input : RunInput) :
    Agent × Except Fault TaskResult :=
  if agent.status = .idle then
    let started := agent.startRun config input.start
    match input.start.fault with
    | some fault => (started, .error fault)
    | none =>
        match runLoop config input.passes config.maxIterations started with
        | (after, ended) => finishRun input after ended
  else
    (agent, .error (.exception ("Cannot run: Agent '" ++ input.name ++ "' is in status '" ++
      agent.status.value ++ "', expected 'idle'")))

/-- The status in which the `try` block leaves the agent. -/
def endStatus (ended : LoopEnd) : AgentStatus :=
  match ended.fault with
  | none => .completed
  | some fault => if fault.isException then .failed else .idle

variable {config : AgentConfig} {agent : Agent} {pass : Pass}

/-- A pass that ends the loop leaves the status of its end. -/
theorem runPass_status (goesOn : agent.iterationCount < config.maxIterations) {ended : LoopEnd}
    (ends : agent.passEnd config pass = some ended) :
    (agent.runPass config pass).status = endStatus ended := by
  unfold runPass
  unfold passEnd at ends
  rw [if_pos goesOn]
  cases reacted : { agent with iterationCount := agent.iterationCount + 1 }.react config pass with
  | mk after outcome =>
      rw [reacted] at ends
      cases outcome with
      | error fault =>
          obtain rfl := Option.some.inj ends
          rfl
      | ok result =>
          obtain ⟨thought, action⟩ := result
          cases thought with
          | toolCall toolCallId name => cases ends
          | respond response =>
              dsimp only at ends ⊢
              unfold completeRun
              by_cases empty : response = ""
              · rw [if_pos empty] at ends ⊢
                obtain rfl := Option.some.inj ends
                rfl
              · rw [if_neg empty] at ends ⊢
                cases stored : pass.memory with
                | ok done =>
                    rw [stored] at ends
                    obtain rfl := Option.some.inj ends
                    rfl
                | error fault =>
                    rw [stored] at ends
                    obtain rfl := Option.some.inj ends
                    rfl

/-- Only the conversation and the calls of the model differ. -/
def SameBut (before after : Agent) : Prop :=
  ∃ conversation calls,
    after = { before with conversation := conversation, calls := calls }

theorem think_sameBut (config : AgentConfig) (agent : Agent) (client : Client) :
    SameBut agent (agent.think config client).1 := by
  unfold think
  cases client with
  | absent lastUser => exact ⟨_, _, rfl⟩
  | present modelTurn =>
      dsimp only
      split
      · exact ⟨_, _, rfl⟩
      · exact ⟨_, _, rfl⟩
      · unfold callLLM
        cases modelTurn.answer with
        | error fault => exact ⟨_, _, rfl⟩
        | ok response =>
            dsimp only
            split
            · exact ⟨_, _, rfl⟩
            · split <;> exact ⟨_, _, rfl⟩

theorem react_sameBut (config : AgentConfig) (agent : Agent) (pass : Pass) :
    SameBut agent (agent.react config pass).1 := by
  unfold react observe
  cases pass.observe with
  | error fault => exact ⟨_, _, rfl⟩
  | ok seen =>
      dsimp only
      obtain ⟨conversation, calls, thought⟩ :=
        think_sameBut config (agent.callModel pass.compacts.toNat) pass.client
      cases result : (agent.callModel pass.compacts.toNat).think config pass.client with
      | mk after outcome =>
          rw [result] at thought
          obtain rfl := thought
          cases outcome with
          | error fault => exact ⟨_, _, rfl⟩
          | ok thought => cases thought with
            | respond response => exact ⟨_, _, rfl⟩
            | toolCall toolCallId name =>
                dsimp only
                split <;> exact ⟨_, _, rfl⟩

theorem react_iterationCount (config : AgentConfig) (agent : Agent) (pass : Pass) :
    (agent.react config pass).1.iterationCount = agent.iterationCount := by
  obtain ⟨conversation, calls, same⟩ := react_sameBut config agent pass
  rw [same]

theorem injectConvergenceReminders_iterationCount (config : AgentConfig) (agent : Agent)
    (action : ActionResult) (willContinue : Bool) :
    (agent.injectConvergenceReminders config action willContinue).iterationCount =
      agent.iterationCount := by
  have failures : (agent.remindOfFailures action).iterationCount = agent.iterationCount := by
    unfold remindOfFailures
    dsimp only
    split
    · rfl
    · split <;> rfl
  unfold injectConvergenceReminders remindOfBudget
  split
  · split <;> exact failures
  · rfl

/-- A pass that does not end the loop is one iteration. -/
theorem runPass_iterationCount (goesOn : agent.iterationCount < config.maxIterations)
    (continues : agent.passEnd config pass = none) :
    (agent.runPass config pass).iterationCount = agent.iterationCount + 1 := by
  have kept := react_iterationCount config
    { agent with iterationCount := agent.iterationCount + 1 } pass
  unfold runPass
  unfold passEnd at continues
  rw [if_pos goesOn]
  cases reacted : { agent with iterationCount := agent.iterationCount + 1 }.react config pass with
  | mk after outcome =>
      rw [reacted] at continues kept
      cases outcome with
      | error fault => cases continues
      | ok result =>
          obtain ⟨thought, action⟩ := result
          cases thought with
          | toolCall toolCallId name =>
              exact (injectConvergenceReminders_iterationCount config after action true).trans kept
          | respond response =>
              dsimp only at continues
              split at continues
              · cases continues
              · split at continues <;> cases continues

/-- The loop leaves the status of its end. -/
theorem runLoop_status (passes : Nat → Pass) {left : Nat}
    (count : agent.iterationCount + left = config.maxIterations) :
    (runLoop config passes left agent).1.status =
      endStatus (runLoop config passes left agent).2 := by
  induction left generalizing agent with
  | zero => rfl
  | succ left ih =>
      have goesOn : agent.iterationCount < config.maxIterations := by omega
      unfold runLoop
      dsimp only
      split
      · rename_i ended ends
        exact runPass_status goesOn ends
      · rename_i continues
        refine ih ?_
        rw [runPass_iterationCount goesOn continues]
        omega

/-- An agent that may start is running while the awaits before the loop are made, and no iteration
has been counted. -/
theorem startRun_fresh (idle : agent.status = .idle) (start : RunStart) :
    (agent.startRun config start).status = .running ∧
      (agent.startRun config start).iterationCount = 0 := by
  unfold startRun
  rw [if_pos idle]
  dsimp only
  split
  · exact ⟨rfl, rfl⟩
  · split
    · exact ⟨rfl, rfl⟩
    · split
      · exact ⟨rfl, rfl⟩
      · exact ⟨rfl, rfl⟩

theorem finishRun_status (input : RunInput) (agent : Agent) (ended : LoopEnd) :
    (finishRun input agent ended).1.status = agent.status := by
  unfold finishRun
  dsimp only
  split
  · split <;> rfl
  · rfl

theorem endStatus_ne_running (ended : LoopEnd) : endStatus ended ≠ .running := by
  unfold endStatus
  split
  · simp
  · split <;> simp

/-- Once the loop has begun, the agent is not left running, whatever is thrown. -/
theorem runTask_status (input : RunInput) (idle : agent.status = .idle)
    (started : input.start.fault = none) : (agent.runTask config input).1.status ≠ .running := by
  have count : (agent.startRun config input.start).iterationCount + config.maxIterations =
      config.maxIterations := by
    rw [(startRun_fresh idle _).2, Nat.zero_add]
  have status := runLoop_status input.passes count
  unfold runTask
  rw [if_pos idle]
  dsimp only
  rw [started]
  dsimp only
  rw [finishRun_status, status]
  exact endStatus_ne_running _

end Agent

namespace RunStart

/-- Nothing before the loop throws or is cancelled. -/
def Quiet (start : RunStart) : Prop :=
  start.onStart = .ok () ∧ start.prepare = .ok () ∧ start.memory = .ok ()

theorem quiet_iff_fault {start : RunStart} : start.Quiet ↔ start.fault = none := by
  obtain ⟨task, onStart, consults, prepare, memory⟩ := start
  unfold Quiet fault
  cases onStart with
  | error thrown => simp
  | ok done => cases prepare with
    | error thrown => simp
    | ok done => cases memory with
      | error thrown => simp
      | ok done => simp

end RunStart

namespace Agent

/--
However `run` ends, the agent is not left running exactly if it was not running
when `run` was called and, where it could start, nothing was thrown before the
loop.
-/
theorem runTask_leaves_running_iff (config : AgentConfig) (agent : Agent) (input : RunInput) :
    (agent.runTask config input).1.status ≠ .running ↔
      agent.status ≠ .running ∧ (agent.status = .idle → input.start.Quiet) := by
  by_cases idle : agent.status = .idle
  · have ready : agent.status ≠ .running := by rw [idle]; simp
    rw [and_iff_right ready, RunStart.quiet_iff_fault]
    constructor
    · intro left _
      by_contra thrown
      refine left ?_
      obtain ⟨fault, thrown⟩ := Option.ne_none_iff_exists'.mp thrown
      unfold runTask
      rw [if_pos idle]
      dsimp only
      rw [thrown]
      exact (startRun_fresh idle input.start).1
    · intro quiet
      exact runTask_status input idle (quiet idle)
  · unfold runTask
    rw [if_neg idle]
    exact (and_iff_left fun now => absurd now idle).symm

/-- A hook before the loop that raises leaves an idle agent running. -/
theorem onStart_leaves_running :
    (runTask { recognise := fun _ _ => .ok [] } { status := .idle }
      { name := "a"
        start := ⟨"task", .error (.exception "no"), false, .ok (), .ok ()⟩
        passes := fun _ => ⟨false, .ok (), .absent "", ⟨.ok .pass, none, .registry [] (.ok ""),
          .ok (), .ok (), "", .ok (), .ok .pass⟩, .ok ()⟩
        typeName := fun _ => "RuntimeError"
        onStop := .ok ()
        onSessionEnd := .ok () }).1.status = .running := rfl

end Agent

end YouMi.Core
