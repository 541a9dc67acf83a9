import YouMi.Library.Interleaving
import YouMi.Library.Layers

/-!
# Workflow plans

`WorkflowPlan` and `WorkflowExecutor`: a plan is checked, its steps are put in layers,
and each layer is executed step by step or with its steps interleaved.  A step is a
coroutine: between two points where it awaits, it runs without interruption.  How long
anything takes is not modelled, so a delay before an attempt always ends.
-/

namespace YouMi.Coordinator

open YouMi.Library

/-! ## Plans -/

inductive StepStatus where
  | pending
  | running
  | completed
  | failed
  | skipped
  deriving DecidableEq, Repr

structure WorkflowStep where
  stepId : String
  dependsOn : List String
  retryCount : Int
  /-- `timeout_seconds` as it is printed, if it is positive. -/
  timeout : Option String
  deriving DecidableEq, Repr

/-- What an agent returns from `run`. -/
structure TaskResult where
  success : Bool
  output : String
  error : Option String
  deriving DecidableEq, Repr

structure StepResult where
  stepId : String
  status : StepStatus
  agentId : String
  taskResult : Option TaskResult
  error : Option String
  deriving DecidableEq, Repr

structure WorkflowPlan where
  steps : List WorkflowStep
  deriving DecidableEq, Repr

namespace WorkflowPlan

def stepIds (plan : WorkflowPlan) : List String := plan.steps.map WorkflowStep.stepId

def getStep (plan : WorkflowPlan) (stepId : String) : Option WorkflowStep :=
  plan.steps.find? fun step => step.stepId = stepId

/-- `adj.get(step_id, [])` of the cycle search. -/
def dependencies (plan : WorkflowPlan) (stepId : String) : List String :=
  ((plan.getStep stepId).map WorkflowStep.dependsOn).getD []

/-- `_detect_cycle`. -/
def detectCycle (plan : WorkflowPlan) : Option (List String) :=
  DepthFirst.findCycle plan.dependencies plan.stepIds

/-- The errors of one step. -/
def stepErrors (plan : WorkflowPlan) (step : WorkflowStep) : List String :=
  (step.dependsOn.filter (· ∉ plan.stepIds)).map
      (fun dep => "步骤 '" ++ step.stepId ++ "' 依赖 '" ++ dep ++ "'，但该步骤不存在") ++
    if step.stepId ∈ step.dependsOn then ["步骤 '" ++ step.stepId ++ "' 不能依赖自己"] else []

def validate (plan : WorkflowPlan) : List String :=
  let errors := (if plan.stepIds.Nodup then [] else ["存在重复的 step_id"]) ++
    plan.steps.flatMap plan.stepErrors
  if errors = [] then
    match plan.detectCycle with
    | none => []
    | some cycle => ["检测到循环依赖: " ++ " → ".intercalate cycle]
  else errors

def getExecutionOrder (plan : WorkflowPlan) : List (List String) :=
  Layers.layers plan.stepIds plan.dependencies

end WorkflowPlan

/-! ## Attempts -/

/-- An exception; only those of the class `Exception` are caught. -/
inductive Raised where
  | timeoutError
  /-- Its class and text. -/
  | exception (text : String)
  | cancelledError
  deriving DecidableEq, Repr

/-- What the sub-agent of an attempt does. -/
inductive Outcome where
  | notCreated (error : Raised)
  /-- `initialize` or `run` raises. -/
  | interrupted (agentId : String) (error : Raised)
  | finished (agentId : String) (result : TaskResult)
  deriving DecidableEq, Repr

/-- An exception that leaves `_execute_step`. -/
inductive Escape where
  | overflowError
  | cancelledError
  deriving DecidableEq, Repr

/-- Where the coroutine of a step is. -/
inductive Control where
  | created
  /-- At the head of the loop over attempts. -/
  | looping (attempt : Nat) (lastError : Option String)
  /-- Its agent works. -/
  | awaiting (attempt : Nat) (lastError : Option String)
  | returned
  | raised (escape : Escape)
  deriving DecidableEq, Repr

/-- The result of a step, its coroutine, and how many attempts were made. -/
structure StepRun where
  result : StepResult
  attempts : Nat
  control : Control
  deriving DecidableEq, Repr

def StepRun.init (stepId : String) : StepRun :=
  ⟨⟨stepId, .pending, "", none, none⟩, 0, .created⟩

abbrev Results := String → Option StepRun

/-- What each attempt of each step does. -/
abbrev Behaviour := String → Nat → Outcome

structure WorkflowExecutor where
  plan : WorkflowPlan
  parallel : Bool
  failFast : Bool
  /-- `default_timeout` as it is printed. -/
  defaultTimeout : String
  deriving DecidableEq, Repr

namespace WorkflowExecutor

/-- Why a step is skipped, looking at its dependencies in turn. -/
def skipError (executor : WorkflowExecutor) (results : Results) : List String → Option String
  | [] => none
  | dep :: rest =>
      match results dep with
      | none => some ("依赖步骤 '" ++ dep ++ "' 不存在")
      | some depRun =>
          if (depRun.result.status = .failed ∨ depRun.result.status = .skipped) ∧
              executor.failFast then
            some ("依赖步骤 '" ++ dep ++ "' 失败: " ++ depRun.result.error.getD "None")
          else executor.skipError results rest

/-- `retry_backoff * (2 ** (attempt - 1))` is no float any more. -/
def backoffOverflows (attempt : Nat) : Bool := 1025 ≤ attempt

def effectiveTimeout (executor : WorkflowExecutor) (step : WorkflowStep) : String :=
  step.timeout.getD executor.defaultTimeout

/-- The handlers around an attempt. -/
def handle (executor : WorkflowExecutor) (step : WorkflowStep) (attempt : Nat) : Raised → Control
  | .timeoutError =>
      .looping (attempt + 1) (some ("步骤超时 (" ++ executor.effectiveTimeout step ++ "s)"))
  | .exception text => .looping (attempt + 1) (some text)
  | .cancelledError => .raised .cancelledError

/-- An attempt up to where its agent is awaited. -/
def beginAttempt (executor : WorkflowExecutor) (step : WorkflowStep) (run : StepRun)
    (attempt : Nat) (lastError : Option String) : Outcome → StepRun
  | .notCreated error =>
      { run with attempts := attempt + 1, control := executor.handle step attempt error }
  | .interrupted agentId _ | .finished agentId _ =>
      { result := { run.result with agentId := agentId }
        attempts := attempt + 1
        control := .awaiting attempt lastError }

/-- The rest of the attempt. -/
def endAttempt (executor : WorkflowExecutor) (step : WorkflowStep) (run : StepRun)
    (attempt : Nat) : Outcome → StepRun
  | .notCreated error | .interrupted _ error =>
      { run with control := executor.handle step attempt error }
  | .finished _ taskResult =>
      { run with
        result := { run.result with
          taskResult := some taskResult
          status := if taskResult.success then .completed else .failed
          error := taskResult.error }
        control := if taskResult.success then .returned
          else .looping (attempt + 1) taskResult.error }

/-- The coroutine up to its next point of waiting. -/
def resume (executor : WorkflowExecutor) (behaviour : Behaviour) (results : Results)
    (step : WorkflowStep) (run : StepRun) : Option StepRun :=
  match run.control with
  | .created =>
      match executor.skipError results step.dependsOn with
      | some error =>
          some { run with
            result := { run.result with status := .skipped, error := some error }
            control := .returned }
      | none =>
          some { run with
            result := { run.result with status := .running }
            control := .looping 0 none }
  | .looping attempt lastError =>
      if (step.retryCount + 1).toNat ≤ attempt then
        some { run with
          result := { run.result with status := .failed, error := lastError }
          control := .returned }
      else if backoffOverflows attempt then some { run with control := .raised .overflowError }
      else some (executor.beginAttempt step run attempt lastError (behaviour step.stepId attempt))
  | .awaiting attempt _ =>
      some (executor.endAttempt step run attempt (behaviour step.stepId attempt))
  | .returned => none
  | .raised _ => none

/-- `_execute_step`, one segment at a time; it returns at once if there is no such step. -/
def executeStep (executor : WorkflowExecutor) (behaviour : Behaviour) (stepId : String)
    (results : Results) : Option (Option StepRun) :=
  (executor.plan.getStep stepId).bind fun step =>
    (results stepId).bind fun run => (executor.resume behaviour results step run).map some

/-! ## Layers -/

/-- More segments than the coroutine of a step can have. -/
def segments (executor : WorkflowExecutor) (stepId : String) : Nat :=
  match executor.plan.getStep stepId with
  | none => 0
  | some step => 2 * (step.retryCount + 1).toNat + 2

/-- A coroutine that is awaited runs to its end. -/
def awaitStep (executor : WorkflowExecutor) (behaviour : Behaviour) (results : Results)
    (stepId : String) : Results :=
  Interleaving.interleave (executor.executeStep behaviour) results
    (List.replicate (executor.segments stepId) stepId)

/-- The exception with which a coroutine has ended. -/
def escape (results : Results) (stepId : String) : Option Escape :=
  match (results stepId).map StepRun.control with
  | some (.raised escape) => some escape
  | _ => none

/-- How an execution ends; it is `unfinished` while a coroutine of a layer has not ended. -/
inductive Ending where
  | returned
  | raised (escape : Escape)
  | unfinished
  deriving DecidableEq, Repr

/-- `_execute_layer_serial`: an exception ends it. -/
def executeLayerSerial (executor : WorkflowExecutor) (behaviour : Behaviour) :
    List String → Results → Ending × Results
  | [], results => (.returned, results)
  | stepId :: rest, results =>
      let results := executor.awaitStep behaviour results stepId
      match escape results stepId with
      | some escape => (.raised escape, results)
      | none => executor.executeLayerSerial behaviour rest results

/-- `_execute_layer_parallel` under a schedule: `gather` keeps exceptions as results. -/
def executeLayerParallel (executor : WorkflowExecutor) (behaviour : Behaviour)
    (schedule layer : List String) (results : Results) : Ending × Results :=
  let results := Interleaving.interleave (executor.executeStep behaviour) results
    (schedule.filter (· ∈ layer))
  if ∀ stepId ∈ layer, executor.executeStep behaviour stepId results = none then
    (.returned, results)
  else (.unfinished, results)

def executeLayer (executor : WorkflowExecutor) (behaviour : Behaviour)
    (schedule layer : List String) (results : Results) : Ending × Results :=
  if executor.parallel ∧ 1 < layer.length then
    executor.executeLayerParallel behaviour schedule layer results
  else executor.executeLayerSerial behaviour layer results

/-- The layers in turn; each has its own schedule. -/
def executeLayers (executor : WorkflowExecutor) (behaviour : Behaviour)
    (schedule : List String → List String) : List (List String) → Results → Ending × Results
  | [], results => (.returned, results)
  | layer :: rest, results =>
      match executor.executeLayer behaviour (schedule layer) layer results with
      | (.returned, results) => executor.executeLayers behaviour schedule rest results
      | (ending, results) => (ending, results)

def initialResults (executor : WorkflowExecutor) : Results := fun stepId =>
  if stepId ∈ executor.plan.stepIds then some (StepRun.init stepId) else none

/-- `execute`; a plan that is not valid raises a `ValueError`. -/
def execute (executor : WorkflowExecutor) (behaviour : Behaviour)
    (schedule : List String → List String) : Except String (Ending × Results) :=
  let errors := executor.plan.validate
  if errors ≠ [] then .error ("计划验证失败: " ++ "; ".intercalate errors)
  else
    .ok (executor.executeLayers behaviour schedule executor.plan.getExecutionOrder
      executor.initialResults)

end WorkflowExecutor

end YouMi.Coordinator
