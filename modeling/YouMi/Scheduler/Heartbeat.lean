import Mathlib.Algebra.Field.Rat
import YouMi.Core.ReactLoop
import YouMi.Library.OrderedDict
import YouMi.Library.Runs

/-!
# The heartbeat scheduler

`HeartbeatScheduler` of `scheduler/__init__.py`: background loops and manual triggers wake an
agent for its tasks.  A coroutine goes on when what it awaits answers, and runs to its next
`await`; between any two steps the agents may change their statuses.
-/

namespace YouMi.Scheduler

open YouMi.Core YouMi.Library

/-! ## Tasks -/

structure ScheduledTask where
  name : String
  intervalSeconds : NNRat
  taskDescription : String
  enabled : Bool := true
  /-- Zero sets no limit. -/
  maxRuns : Nat := 0
  delaySeconds : NNRat := 0
  deriving DecidableEq

/-- `_TaskState`. -/
structure TaskState (R : Type) where
  task : ScheduledTask
  runCount : Nat := 0
  lastRunAt : Rat := 0
  lastResult : Option R := none
  lastError : Option String := none
  cancelled : Bool := false

def TaskState.isComplete {R : Type} (state : TaskState R) : Bool :=
  state.cancelled || !state.task.enabled ||
    (decide (0 < state.task.maxRuns) && decide (state.task.maxRuns ≤ state.runCount))

/-! ## Coroutines -/

/-- What a coroutine awaits.  The numbers are those of task states and of agents. -/
inductive Await where
  /-- The first turn of the loop that `start` creates for a name. -/
  | turn (name : String)
  | delay (state : Nat)
  | interval (state : Nat)
  | handler (state : Nat)
  | initialization (state agent : Nat)
  | run (state agent : Nat)
  deriving DecidableEq

/-- The task state for which a coroutine awaits a call that may raise. -/
def Await.calledFor : Await → Option Nat
  | .handler id => some id
  | .initialization id _ => some id
  | .run id _ => some id
  | _ => none

/-- A loop in the background, or a manual trigger with what it returns or raises. -/
structure Coroutine (R : Type) where
  loop : Bool
  awaits : Option Await := none
  answer : Option (Except String (Option R)) := none

/-- How an `await` ends. -/
inductive Answer (R : Type) where
  | returns (result : Option R)
  | raises (error : String)
  | cancelled

/-- What the scheduler logs and calls. -/
inductive Effect where
  | executing (state : Nat)
  | handles (state : Nat) (task : ScheduledTask)
  | runs (state : Nat) (task taskId : String)
  | skips (state : Nat)
  deriving DecidableEq

/-! ## The scheduler -/

structure HeartbeatScheduler (R : Type) where
  /-- There is a custom handler. -/
  handler : Bool
  /-- The statuses of the agents there are. -/
  agents : List AgentStatus
  agent : Option Nat := none
  /-- Every task state that was made, also of removed tasks. -/
  states : List (TaskState R) := []
  tasks : OrderedDict String Nat := []
  running : Bool := false
  coroutines : List (Coroutine R) := []
  effects : List Effect := []

namespace HeartbeatScheduler

variable {R : Type}

def onState (s : HeartbeatScheduler R) (id : Nat) (f : TaskState R → TaskState R) :
    HeartbeatScheduler R :=
  { s with states := s.states.modify id f }

def onCoroutine (s : HeartbeatScheduler R) (index : Nat) (f : Coroutine R → Coroutine R) :
    HeartbeatScheduler R :=
  { s with coroutines := s.coroutines.modify index f }

def waits (s : HeartbeatScheduler R) (index : Nat) (await : Option Await) :
    HeartbeatScheduler R :=
  s.onCoroutine index fun coroutine => { coroutine with awaits := await }

def spawn (s : HeartbeatScheduler R) (coroutine : Coroutine R) : HeartbeatScheduler R :=
  { s with coroutines := s.coroutines ++ [coroutine] }

def record (s : HeartbeatScheduler R) (effect : Effect) : HeartbeatScheduler R :=
  { s with effects := s.effects ++ [effect] }

/-- After `_execute_task`: a trigger ends, a loop waits for its interval or ends. -/
def finish (s : HeartbeatScheduler R) (index id : Nat) (answer : Except String (Option R)) :
    HeartbeatScheduler R :=
  match s.coroutines[index]?, s.states[id]? with
  | some coroutine, some state =>
      if coroutine.loop then
        let s := match answer with
          | .ok _ => s
          | .error error => s.onState id fun state => { state with lastError := some error }
        if 0 < state.task.intervalSeconds ∧ s.running then s.waits index (some (.interval id))
        else s.waits index none
      else s.onCoroutine index fun coroutine => { coroutine with answer := some answer }
  | _, _ => s

/-- An agent that ended its run may be scheduled again. -/
def resetAgent (s : HeartbeatScheduler R) (agent : Nat) : HeartbeatScheduler R :=
  { s with
    agents := s.agents.modify agent fun status =>
      if status = AgentStatus.completed ∨ status = AgentStatus.failed then .idle else status }

/-- The end of `_execute_task` after a result. -/
def complete (s : HeartbeatScheduler R) (index id : Nat) (result : Option R) :
    HeartbeatScheduler R :=
  (s.onState id fun state => { state with lastResult := result }).finish index id (.ok result)

/-- `_execute_task` once the agent is initialized. -/
def runAgent (s : HeartbeatScheduler R) (index id agent : Nat) : HeartbeatScheduler R :=
  if s.agents[agent]? = some .running then
    ((s.onState id fun state => { state with lastError := some "Agent is busy" }).record
      (.skips id)).finish index id (.ok none)
  else
    match s.states[id]? with
    | none => s
    | some state =>
        (s.record (.runs id state.task.taskDescription
          s!"heartbeat-{state.task.name}-{state.runCount}")).waits index (some (.run id agent))

/-- The first lines of `_execute_task`. -/
def charge (s : HeartbeatScheduler R) (id : Nat) (now : Rat) : HeartbeatScheduler R :=
  (s.record (.executing id)).onState id fun state =>
    { state with runCount := state.runCount + 1, lastRunAt := now, lastError := none }

/-- `_execute_task` up to its first `await`. -/
def executeTask (s : HeartbeatScheduler R) (index id : Nat) (now : Rat) : HeartbeatScheduler R :=
  match s.states[id]? with
  | none => s
  | some state =>
      let s := s.charge id now
      if s.handler then (s.record (.handles id state.task)).waits index (some (.handler id))
      else
        match s.agent with
        | none =>
            s.finish index id (.error "AttributeError: 'NoneType' object has no attribute 'status'")
        | some agent =>
            if s.agents[agent]? = some .created then
              s.waits index (some (.initialization id agent))
            else s.runAgent index id agent

/-- The condition of the loop of a task. -/
def goesOn (s : HeartbeatScheduler R) (id : Nat) : Bool :=
  s.running && s.states[id]?.any fun state => !state.isComplete

def nextRun (s : HeartbeatScheduler R) (index id : Nat) (now : Rat) : HeartbeatScheduler R :=
  if s.goesOn id then s.executeTask index id now else s.waits index none

/-- The loop of this state begins with a delay. -/
def delayed (s : HeartbeatScheduler R) (id : Nat) : Bool :=
  s.states[id]?.any fun state => decide (0 < state.task.delaySeconds)

/-- A coroutine goes on after what it awaited returned. -/
def goOn (s : HeartbeatScheduler R) (index : Nat) (now : Rat) (result : Option R) :
    Await → HeartbeatScheduler R
  | .turn name =>
      match s.tasks.lookup name with
      | none => s
      | some id => if s.delayed id then s.waits index (some (.delay id)) else s.nextRun index id now
  | .delay id => s.nextRun index id now
  | .interval id => s.nextRun index id now
  | .handler id => s.complete index id result
  | .initialization id agent => s.runAgent index id agent
  | .run id agent => (s.resetAgent agent).complete index id result

def awaited (s : HeartbeatScheduler R) (index : Nat) : Option Await :=
  s.coroutines[index]?.bind Coroutine.awaits

/-- A coroutine goes on; it awaits nothing while it runs. -/
def resume (s : HeartbeatScheduler R) (index : Nat) (answer : Answer R) (now : Rat) :
    HeartbeatScheduler R :=
  match s.awaited index with
  | none => s
  | some await =>
      let s := s.waits index none
      match answer with
      | .cancelled => s
      | .raises error =>
          match await.calledFor with
          | none => s
          | some id => s.finish index id (.error error)
      | .returns result => s.goOn index now result await

def addTask (s : HeartbeatScheduler R) (task : ScheduledTask) : HeartbeatScheduler R :=
  if (s.tasks.lookup task.name).isSome then s
  else
    { s with
      states := s.states ++ [{ task := task }]
      tasks := s.tasks.assign task.name s.states.length }

def removeTask (s : HeartbeatScheduler R) (name : String) : HeartbeatScheduler R :=
  match s.tasks.lookup name with
  | none => s
  | some id =>
      let removed : HeartbeatScheduler R := { s with tasks := s.tasks.erase name }
      removed.onState id fun state => { state with cancelled := true }

def enableTask (s : HeartbeatScheduler R) (name : String) (enabled : Bool) :
    HeartbeatScheduler R :=
  match s.tasks.lookup name with
  | none => s
  | some id => s.onState id fun state =>
      { state with task := { state.task with enabled := enabled } }

def start (s : HeartbeatScheduler R) : HeartbeatScheduler R :=
  if s.running || s.agent.isNone then s
  else
    let active := s.tasks.filter fun entry =>
      s.states[entry.2]?.any fun state => state.task.enabled && !state.isComplete
    { s with
      running := true
      coroutines := s.coroutines ++ active.map fun entry =>
        { loop := true, awaits := some (.turn entry.1) } }

def runOnce (s : HeartbeatScheduler R) (name : String) (now : Rat) : HeartbeatScheduler R :=
  match s.tasks.lookup name with
  | none => s
  | some id => (s.spawn { loop := false }).executeTask s.coroutines.length id now

/-! ## Runs -/

/-- The calls of the scheduler's methods, the steps of its coroutines, of which `stop` and others
may cancel any, and the changes of the agents. -/
inductive Action (R : Type) where
  | addTask (task : ScheduledTask)
  | removeTask (name : String)
  | enableTask (name : String) (enabled : Bool)
  | bindAgent (agent : Nat)
  | start
  | stop
  | runOnce (name : String) (now : Rat)
  | resume (index : Nat) (answer : Answer R) (now : Rat)
  | agentStatus (agent : Nat) (status : AgentStatus)

def step (s : HeartbeatScheduler R) : Action R → HeartbeatScheduler R
  | .addTask task => s.addTask task
  | .removeTask name => s.removeTask name
  | .enableTask name enabled => s.enableTask name enabled
  | .bindAgent agent => { s with agent := some agent }
  | .start => s.start
  | .stop => { s with running := false }
  | .runOnce name now => s.runOnce name now
  | .resume index answer now => s.resume index answer now
  | .agentStatus agent status => { s with agents := s.agents.set agent status }

end HeartbeatScheduler

end YouMi.Scheduler
