import YouMi.Bus.Delivery
import YouMi.Bus.PendingAcks
import YouMi.Core.AgentRun
import YouMi.Python.JsonRoundTrip

/-!
# Sub-agents in processes of their own

`SubProcessAgentRunner` and the entry script of the process it starts: the master sends
the task over the bus and waits, under the name `master`, for what the process reports.
A process hears of the bus only through its own queue, and nothing is said of the time
between its steps and the master's.
-/

namespace YouMi.Coordinator

open YouMi.Bus YouMi.Bus.InProcessBroker YouMi.Core YouMi.Library YouMi.Python

/-! ## The report -/

/-- What the entry script reports of an exception. -/
def crashResult (error : String) : Core.TaskResult :=
  { status := .failed, output := none, iterations := 0, error := some error }

/-- The result the script reports on: that of `agent.run`, or of its exception. -/
def reportedResult : Except String Core.TaskResult → Core.TaskResult
  | .ok result => result
  | .error error => crashResult error

def errorJson : Option String → Json
  | none => .null
  | some error => .str error.toList

/-- The content of the feedback, before `json.dumps`. -/
def feedbackEntries (result : Core.TaskResult) : List (List Char × Json) :=
  [("status".toList, .str result.status.value.toList),
    ("output".toList, .str (result.output.getD "").toList),
    ("iterations".toList, .number (Nat.toDigits 10 result.iterations)),
    ("error".toList, errorJson result.error)]

/-- The feedback on a task; success is told in the metadata alone. -/
def feedbackOn (task : WorkflowMessage) (agentId messageId tenant : String)
    (result : Core.TaskResult) : WorkflowMessage where
  messageId := messageId
  workflowId := task.workflowId
  fromAgentId := agentId
  toAgentId := some task.fromAgentId
  msgType := .feedback
  content := String.ofList (Json.dumps false id (.dict (feedbackEntries result)))
  tenant := tenant
  metadata := [("subprocess", .bool true), ("success", .bool result.success)]

/-! ## What is read from it -/

structure SubProcessResult where
  status : String := "unknown"
  output : String := ""
  iterations : Int := 0
  error : Option String := none
  success : Bool := false

/-- How the result model reads a number and a truth value, and the text of what it raises. -/
structure ResultFields where
  int : Json → Option Int
  bool : Json → Option Bool
  fault : Json → String
  int_digits : ∀ n : Nat, int (.number (Nat.toDigits 10 n)) = some (n : Int)
  bool_bool : ∀ value, bool (.bool value) = some value

namespace ResultFields

def text : Json → Option String
  | .str text => some (String.ofList text)
  | _ => none

def optionalText : Json → Option (Option String)
  | .null => some none
  | value => (text value).map some

/-- `SubProcessResult(status=data.get("status", "unknown"), …)`; `none` where it raises. -/
def fromData (fields : ResultFields) (data : OrderedDict (List Char) Json) :
    Option SubProcessResult := do
  let status ← text ((data.lookup "status".toList).getD (.str "unknown".toList))
  let output ← text ((data.lookup "output".toList).getD (.str []))
  let iterations ← fields.int ((data.lookup "iterations".toList).getD (.number ['0']))
  let error ← optionalText ((data.lookup "error".toList).getD .null)
  let success ← fields.bool ((data.lookup "success".toList).getD (.bool false))
  some { status, output, iterations, error, success }

/-- What `wait_result` makes of a message; an error where it raises. -/
def readMessage (fields : ResultFields) (message : WorkflowMessage) :
    Except String SubProcessResult :=
  match Json.loads message.content.toList with
  | none =>
      .ok { output := message.content, success := decide (message.msgType = .feedback) }
  | some (.dict data) =>
      match fields.fromData data with
      | some result => .ok result
      | none => .error (fields.fault (.dict data))
  | some data => .error (fields.fault data)

end ResultFields

/-- The result of a run that is kept with the record of the sub-agent. -/
structure IsolatedResult where
  status : AgentStatus
  output : Option String := none
  iterations : Int := 0
  error : Option String := none

/-- `_run_isolated_sub_agent` once `launch_and_run` has returned or raised. -/
def recordedResult : Except String SubProcessResult → IsolatedResult
  | .ok result =>
      { status := if result.success then .completed else .failed
        output := some result.output
        iterations := result.iterations
        error := result.error }
  | .error error => { status := .failed, error := some error }

/-- What is returned when no message came in time. -/
def timeoutResult : SubProcessResult :=
  { status := "timeout", error := some "等待结果超时 (300.0s)" }

/-- The result that is recorded of a message. -/
def resultOf (fields : ResultFields) (message : WorkflowMessage) : IsolatedResult :=
  recordedResult (fields.readMessage message)

theorem written_feedback (result : Core.TaskResult) :
    Json.Written id (.dict (feedbackEntries result)) := by
  refine .dict _ ?_ fun entry member => ?_
  · change ["status".toList, "output".toList, "iterations".toList, "error".toList].Nodup
    decide
  · simp only [feedbackEntries, List.mem_cons, List.not_mem_nil, or_false] at member
    rcases member with rfl | rfl | rfl | rfl
    · exact .str _
    · exact .str _
    · exact .number _ rfl (Json.isNumber_toDigits _)
    · cases result.error with
      | none => exact .null
      | some error => exact .str _

theorem text_toList (text : String) : ResultFields.text (.str text.toList) = some text :=
  congrArg some String.ofList_toList

theorem optionalText_errorJson (error : Option String) :
    ResultFields.optionalText (errorJson error) = some error := by
  cases error with
  | none => rfl
  | some error => exact congrArg (Option.map some) (text_toList error)

theorem fromData_feedback (fields : ResultFields) (result : Core.TaskResult) :
    fields.fromData (feedbackEntries result) = some
      { status := result.status.value, output := result.output.getD ""
        iterations := result.iterations, error := result.error } := by
  change (do
    let status ← ResultFields.text (.str result.status.value.toList)
    let output ← ResultFields.text (.str (result.output.getD "").toList)
    let iterations ← fields.int (.number (Nat.toDigits 10 result.iterations))
    let error ← ResultFields.optionalText (errorJson result.error)
    let success ← fields.bool (.bool false)
    some ({ status, output, iterations, error, success } : SubProcessResult)) = _
  rw [text_toList, text_toList, fields.int_digits, optionalText_errorJson, fields.bool_bool]
  rfl

/-- A report is read field by field as it was made, but for its success. -/
theorem resultOf_feedback (fields : ResultFields) (task : WorkflowMessage)
    (agentId messageId tenant freshAck : String) (result : Core.TaskResult) :
    resultOf fields ((feedbackOn task agentId messageId tenant result).stamp freshAck) =
      { status := .failed, output := some (result.output.getD "")
        iterations := result.iterations, error := result.error } := by
  have content : ((feedbackOn task agentId messageId tenant result).stamp freshAck).content =
      String.ofList (Json.dumps false id (.dict (feedbackEntries result))) := by
    rw [WorkflowMessage.stamp_content]
    rfl
  have loaded : Json.loads (Json.dumps false id (.dict (feedbackEntries result))) =
      some (.dict (feedbackEntries result)) := (written_feedback result).loads_dumps
  unfold resultOf ResultFields.readMessage
  rw [content, String.toList_ofList, loaded]
  dsimp only
  rw [fromData_feedback]
  rfl

/-! ## Runs -/

/-- Where the process of a sub-agent is. -/
inductive ChildPhase where
  /-- It waits for its task. -/
  | listening
  | working (task : WorkflowMessage)
  | exited

/-- Where a call of `launch_and_run` is. -/
inductive RunPhase where
  /-- The process was started, and the task was not sent. -/
  | started
  | sent
  /-- In `wait_for_message`, holding this queue object. -/
  | waiting (number : Nat)
  /-- In `terminate`; no result if the call was cancelled. -/
  | stopping (result : Option IsolatedResult)
  | ended (result : Option IsolatedResult)

namespace RunPhase

/-- The result with which the call goes to its end. -/
def result : RunPhase → Option IsolatedResult
  | .stopping result | .ended result => result
  | _ => none

def isEnded : RunPhase → Bool
  | .ended _ => true
  | _ => false

end RunPhase

structure IsolatedRun where
  agentId : String
  task : String
  workflowId : String
  phase : RunPhase := .started
  child : ChildPhase := .listening

/-- The name under which the master waits. -/
def masterName : String := "master"

structure Isolation where
  bus : BusState := {}
  /-- By the number of the call. -/
  runs : OrderedDict Nat IsolatedRun := []

/-- What a call, or the process it has started, does next. -/
inductive RunEvent where
  | sendTask (messageId freshAck tenant : String)
  | waitResult
  /-- The call in progress is given a chance to take a message. -/
  | wake
  | timeOut
  | cancel
  /-- `terminate` returns. -/
  | terminated
  /-- The process reads the first message of its queue. -/
  | childReads
  | childReports (outcome : Except String Core.TaskResult) (messageId freshAck tenant : String)
  | childDies

inductive IsolationEvent where
  /-- Anything else on the bus. -/
  | bus (event : BusEvent)
  | launch (call : Nat) (agentId task workflowId : String)
  /-- The process was not started, or has ended at once. -/
  | launchFails (call : Nat) (agentId task workflowId error : String)
  | of (call : Nat) (event : RunEvent)

/-- The message of `send_task`. -/
def taskMessage (run : IsolatedRun) (messageId tenant : String) : WorkflowMessage where
  messageId := messageId
  workflowId := run.workflowId
  fromAgentId := masterName
  toAgentId := some run.agentId
  msgType := .task
  content := run.task
  tenant := tenant
  metadata := [("subprocess", .bool true)]

namespace Isolation

def publish (s : Isolation) (message : WorkflowMessage) (freshAck : String) : Isolation :=
  { s with bus := { s.bus with broker := s.bus.broker.publish message freshAck } }

def setPhase (s : Isolation) (call : Nat) (run : IsolatedRun) (phase : RunPhase) : Isolation :=
  { s with runs := s.runs.assign call { run with phase } }

def setChild (s : Isolation) (call : Nat) (run : IsolatedRun) (child : ChildPhase) : Isolation :=
  { s with runs := s.runs.assign call { run with child } }

/-- `wait_result`: without a queue it has timed out at once. -/
def waitResult (s : Isolation) (call : Nat) (run : IsolatedRun) : Isolation :=
  match s.bus.broker.queues.lookup masterName with
  | none => s.setPhase call run (.stopping (some (recordedResult (.ok timeoutResult))))
  | some number => s.setPhase call run (.waiting number)

/-- What a call takes when it is woken, and what that leaves of the broker. -/
def woken (s : Isolation) (run : IsolatedRun) : Option (WorkflowMessage × InProcessBroker) :=
  match run.phase with
  | .waiting number => s.bus.broker.takeFirst masterName number
  | _ => none

/-- What the process reads while it waits for a task. -/
def childTakes (s : Isolation) (run : IsolatedRun) : Option (WorkflowMessage × InProcessBroker) :=
  match run.child, s.bus.broker.queues.lookup run.agentId with
  | .listening, some number => s.bus.broker.takeFirst run.agentId number
  | _, _ => none

def withBroker (s : Isolation) (broker : InProcessBroker) : Isolation :=
  { s with bus := { s.bus with broker } }

def stepRun (fields : ResultFields) (s : Isolation) (call : Nat) (run : IsolatedRun) :
    RunEvent → Isolation
  | .sendTask messageId freshAck tenant =>
      match run.phase with
      | .started =>
          (s.publish (taskMessage run messageId tenant) freshAck).setPhase call run .sent
      | _ => s
  | .waitResult =>
      match run.phase with
      | .sent => s.waitResult call run
      | _ => s
  | .wake =>
      match s.woken run with
      | none => s
      | some (message, broker) =>
          (s.withBroker broker).setPhase call run (.stopping (some (resultOf fields message)))
  | .timeOut =>
      match run.phase with
      | .waiting _ => s.setPhase call run (.stopping (some (recordedResult (.ok timeoutResult))))
      | _ => s
  | .cancel =>
      match run.phase with
      | .stopping _ | .ended _ => s
      | _ => s.setPhase call run (.stopping none)
  | .terminated =>
      match run.phase with
      | .stopping result => s.setPhase call { run with child := .exited } (.ended result)
      | _ => s
  | .childReads =>
      match s.childTakes run with
      | none => s
      | some (message, broker) =>
          (s.withBroker broker).setChild call run
            (if message.msgType = .task then .working message else .exited)
  | .childReports outcome messageId freshAck tenant =>
      match run.child with
      | .working task =>
          (s.publish (feedbackOn task run.agentId messageId tenant (reportedResult outcome))
            freshAck).setChild call run .exited
      | _ => s
  | .childDies => s.setChild call run .exited

def step (fields : ResultFields) (s : Isolation) : IsolationEvent → Isolation
  | .bus event => { s with bus := s.bus.step event }
  | .launch call agentId task workflowId =>
      match s.runs.lookup call with
      | none => { s with runs := s.runs.assign call { agentId, task, workflowId } }
      | some _ => s
  | .launchFails call agentId task workflowId error =>
      match s.runs.lookup call with
      | none =>
          { s with
            runs := s.runs.assign call
              { agentId, task, workflowId
                phase := .ended (some (recordedResult (.error error))), child := .exited } }
      | some _ => s
  | .of call event =>
      match s.runs.lookup call with
      | none => s
      | some run => s.stepRun fields call run event

/-! ## What is put into the master's queue and taken from it -/

/-- What an event publishes. -/
def published (s : Isolation) : IsolationEvent → Option (WorkflowMessage × String)
  | .bus (.publish message freshAck) => some (message, freshAck)
  | .of call (.sendTask messageId freshAck tenant) =>
      match s.runs.lookup call with
      | none => none
      | some run =>
          match run.phase with
          | .started => some (taskMessage run messageId tenant, freshAck)
          | _ => none
  | .of call (.childReports outcome messageId freshAck tenant) =>
      match s.runs.lookup call with
      | none => none
      | some run =>
          match run.child with
          | .working task =>
              some (feedbackOn task run.agentId messageId tenant (reportedResult outcome), freshAck)
          | _ => none
  | _ => none

/-- A publication as the master gets it, if it is for the master. -/
def forMaster (s : Isolation) : Option (WorkflowMessage × String) → List WorkflowMessage
  | none => []
  | some (message, freshAck) =>
      if s.bus.broker.registry.Concerns masterName message then [message.stamp freshAck] else []

/-- What an event publishes for the master. -/
def due (s : Isolation) (event : IsolationEvent) : List WorkflowMessage :=
  s.forMaster (s.published event)

/-- The message that a call takes for its result. -/
def taken (s : Isolation) : IsolationEvent → List WorkflowMessage
  | .of call .wake =>
      match s.runs.lookup call with
      | none => []
      | some run => ((s.woken run).map Prod.fst).toList
  | _ => []

/-- The result that a call records of a message. -/
def recorded (fields : ResultFields) (s : Isolation) (event : IsolationEvent) :
    List IsolatedResult :=
  (s.taken event).map (resultOf fields)

/-- What an event of a run does: what it publishes, what it takes for a result, the broker
and the run it leaves. -/
inductive Effect (fields : ResultFields) (s : Isolation) (run : IsolatedRun) :
    Option (WorkflowMessage × String) → List WorkflowMessage → InProcessBroker → IsolatedRun →
      Prop where
  | sends (messageId freshAck tenant : String) (started : run.phase = .started) :
      Effect fields s run (some (taskMessage run messageId tenant, freshAck)) []
        (s.bus.broker.publish (taskMessage run messageId tenant) freshAck)
        { run with phase := .sent }
  | waits (number : Nat) (found : s.bus.broker.queues.lookup masterName = some number) :
      Effect fields s run none [] s.bus.broker { run with phase := .waiting number }
  | timesOut :
      Effect fields s run none [] s.bus.broker
        { run with phase := .stopping (some (recordedResult (.ok timeoutResult))) }
  | takes (number : Nat) (message : WorkflowMessage) (broker : InProcessBroker)
      (holds : run.phase = .waiting number)
      (taken : s.bus.broker.takeFirst masterName number = some (message, broker)) :
      Effect fields s run none [message] broker
        { run with phase := .stopping (some (resultOf fields message)) }
  | cancelled : Effect fields s run none [] s.bus.broker { run with phase := .stopping none }
  | stops (result : Option IsolatedResult) (stopping : run.phase = .stopping result) :
      Effect fields s run none [] s.bus.broker
        { run with child := .exited, phase := .ended result }
  | reads (number : Nat) (message : WorkflowMessage) (broker : InProcessBroker)
      (child : ChildPhase) (listening : run.child = .listening)
      (taken : s.bus.broker.takeFirst run.agentId number = some (message, broker)) :
      Effect fields s run none [] broker { run with child }
  | reports (task : WorkflowMessage) (outcome : Except String Core.TaskResult)
      (messageId freshAck tenant : String) (working : run.child = .working task) :
      Effect fields s run
        (some (feedbackOn task run.agentId messageId tenant (reportedResult outcome), freshAck)) []
        (s.bus.broker.publish
          (feedbackOn task run.agentId messageId tenant (reportedResult outcome)) freshAck)
        { run with child := .exited }
  | dies : Effect fields s run none [] s.bus.broker { run with child := .exited }

variable {fields : ResultFields} {s : Isolation}

theorem woken_eq_some {run : IsolatedRun} {message : WorkflowMessage} {broker : InProcessBroker}
    (woken : s.woken run = some (message, broker)) :
    ∃ number, run.phase = .waiting number ∧
      s.bus.broker.takeFirst masterName number = some (message, broker) := by
  unfold Isolation.woken at woken
  split at woken
  · rename_i number holds
    exact ⟨number, holds, woken⟩
  · cases woken

theorem childTakes_eq_some {run : IsolatedRun} {message : WorkflowMessage}
    {broker : InProcessBroker} (taken : s.childTakes run = some (message, broker)) :
    run.child = .listening ∧ ∃ number,
      s.bus.broker.takeFirst run.agentId number = some (message, broker) := by
  unfold childTakes at taken
  split at taken
  · rename_i number listening found
    exact ⟨listening, number, taken⟩
  · cases taken

/-- An event of a run does nothing, or it has one of the effects. -/
theorem step_of_cases (fields : ResultFields) {call : Nat} {run : IsolatedRun}
    (found : s.runs.lookup call = some run) (event : RunEvent) :
    (s.step fields (.of call event) = s ∧ s.published (.of call event) = none ∧
        s.taken (.of call event) = []) ∨
      ∃ broker after,
        Effect fields s run (s.published (.of call event)) (s.taken (.of call event)) broker
          after ∧
        s.step fields (.of call event) =
          { bus := { s.bus with broker }, runs := s.runs.assign call after } := by
  unfold step
  dsimp only
  rw [found]
  dsimp only
  cases event with
  | sendTask messageId freshAck tenant =>
      unfold stepRun published taken
      dsimp only
      rw [found]
      dsimp only
      split
      · rename_i started
        exact .inr ⟨_, _, .sends messageId freshAck tenant started, rfl⟩
      · exact .inl ⟨rfl, rfl, rfl⟩
  | waitResult =>
      unfold stepRun published taken
      dsimp only
      split
      · unfold Isolation.waitResult
        split
        · exact .inr ⟨_, _, .timesOut, rfl⟩
        · rename_i number here
          exact .inr ⟨_, _, .waits number here, rfl⟩
      · exact .inl ⟨rfl, rfl, rfl⟩
  | wake =>
      unfold stepRun published taken
      dsimp only
      rw [found]
      dsimp only
      cases woken : s.woken run with
      | none => exact .inl ⟨rfl, rfl, rfl⟩
      | some took =>
          obtain ⟨message, broker⟩ := took
          obtain ⟨number, holds, took⟩ := woken_eq_some woken
          exact .inr ⟨_, _, .takes number message broker holds took, rfl⟩
  | timeOut =>
      unfold stepRun published taken
      dsimp only
      split
      · exact .inr ⟨_, _, .timesOut, rfl⟩
      · exact .inl ⟨rfl, rfl, rfl⟩
  | cancel =>
      unfold stepRun published taken
      dsimp only
      split
      · exact .inl ⟨rfl, rfl, rfl⟩
      · exact .inl ⟨rfl, rfl, rfl⟩
      · exact .inr ⟨_, _, .cancelled, rfl⟩
  | terminated =>
      unfold stepRun published taken
      dsimp only
      split
      · rename_i result stopping
        exact .inr ⟨_, _, .stops result stopping, rfl⟩
      · exact .inl ⟨rfl, rfl, rfl⟩
  | childReads =>
      unfold stepRun published taken
      dsimp only
      split
      · exact .inl ⟨rfl, rfl, rfl⟩
      · rename_i message broker took
        obtain ⟨listening, number, took⟩ := childTakes_eq_some took
        exact .inr ⟨_, _, .reads number message broker _ listening took, rfl⟩
  | childReports outcome messageId freshAck tenant =>
      unfold stepRun published taken
      dsimp only
      rw [found]
      dsimp only
      split
      · rename_i task working
        exact .inr ⟨_, _, .reports task outcome messageId freshAck tenant working, rfl⟩
      · exact .inl ⟨rfl, rfl, rfl⟩
  | childDies => exact .inr ⟨_, _, .dies, rfl⟩

theorem step_of_missing (fields : ResultFields) {call : Nat} (missing : s.runs.lookup call = none)
    (event : RunEvent) :
    s.step fields (.of call event) = s ∧ s.published (.of call event) = none ∧
      s.taken (.of call event) = [] := by
  unfold step published taken
  dsimp only
  rw [missing]
  refine ⟨rfl, ?_, ?_⟩
  · cases event <;> simp [missing]
  · cases event <;> simp [missing]

/-- Nobody but the calls reads what is for the master. -/
def MasterAlone : IsolationEvent → Prop
  | .bus (.unsubscribe agentId) => agentId ≠ masterName
  | .bus (.waitForMessage agentId) => agentId ≠ masterName
  | .bus (.pendingMessages agentId) => agentId ≠ masterName
  | .launch _ agentId _ _ => agentId ≠ masterName
  | .launchFails _ agentId _ _ _ => agentId ≠ masterName
  | _ => True

/-- Each call that waits holds the queue object in which the messages for the master are. -/
structure Attached (s : Isolation) : Prop where
  tidy : InProcessBroker.Tidy s.bus.broker
  readers : ∀ number, (masterName, number) ∉ s.bus.readers
  waiting : ∀ call run number, s.runs.lookup call = some run → run.phase = .waiting number →
    s.bus.broker.queues.lookup masterName = some number
  children : ∀ call run, s.runs.lookup call = some run → run.agentId ≠ masterName

section Effects

variable {run after : IsolatedRun} {message : Option (WorkflowMessage × String)}
  {took : List WorkflowMessage} {broker : InProcessBroker}

theorem Effect.sameTables (effect : Effect fields s run message took broker after) :
    SameTables s.bus.broker broker := by
  cases effect with
  | sends messageId freshAck tenant => exact sameTables_publish ..
  | takes number message broker holds taken => exact sameTables_takeFirst taken
  | reads number message broker child listening taken => exact sameTables_takeFirst taken
  | reports task outcome messageId freshAck tenant => exact sameTables_publish ..
  | _ => exact SameTables.refl _

theorem Effect.tidy (effect : Effect fields s run message took broker after)
    (tidy : Tidy s.bus.broker) : Tidy broker := by
  cases effect with
  | sends messageId freshAck tenant => exact tidy_publish tidy ..
  | takes number message broker holds taken => exact tidy_takeFirst tidy taken
  | reads number message broker child listening taken => exact tidy_takeFirst tidy taken
  | reports task outcome messageId freshAck tenant => exact tidy_publish tidy ..
  | _ => exact tidy

theorem Effect.agentId (effect : Effect fields s run message took broker after) :
    after.agentId = run.agentId := by
  cases effect <;> rfl

/-- A call waits for as long as it did, or on the queue object that the master has now. -/
theorem Effect.waiting (effect : Effect fields s run message took broker after) {number : Nat}
    (holds : after.phase = .waiting number) :
    run.phase = .waiting number ∨ s.bus.broker.queues.lookup masterName = some number := by
  cases effect with
  | waits n found =>
      cases holds
      exact .inr found
  | reads | reports | dies => exact .inl holds
  | _ => cases holds

/-- What an effect puts into the queue of the master and takes from it. -/
theorem Effect.flows (effect : Effect fields s run message took broker after)
    (tidy : Tidy s.bus.broker) (own : run.agentId ≠ masterName)
    (attached : ∀ number, run.phase = .waiting number →
      s.bus.broker.queues.lookup masterName = some number) :
    s.bus.broker.queueOf masterName ++ s.forMaster message =
      took ++ broker.queueOf masterName := by
  have put (message : WorkflowMessage) (freshAck : String) :
      s.bus.broker.queueOf masterName ++ s.forMaster (some (message, freshAck)) =
        (s.bus.broker.publish message freshAck).queueOf masterName := by
    rw [queueOf_publish tidy]
    exact congrArg _ (if_congr (target_iff_concerns tidy (by decide) message) rfl rfl).symm
  cases effect with
  | sends messageId freshAck tenant => exact put _ freshAck
  | reports task outcome messageId freshAck tenant => exact put _ freshAck
  | takes number message broker holds taken =>
      have found := attached number holds
      have found_after : broker.queues.lookup masterName = some number := by
        rw [(sameTables_takeFirst taken).queues]
        exact found
      rw [queueOf_of_lookup found, queueOf_of_lookup found_after, (held_takeFirst taken).1]
      exact List.append_nil _
  | reads number message broker child listening taken =>
      have untouched := queueOf_takeFirst taken masterName
      rw [if_neg fun both => own both.1.symm] at untouched
      rw [untouched]
      exact List.append_nil _
  | _ => exact List.append_nil _

end Effects

theorem readers_step {bus : BusState} {agent : String} {event : BusEvent}
    (none : ∀ number, (agent, number) ∉ bus.readers) (quiet : event ≠ .waitForMessage agent)
    (number : Nat) : (agent, number) ∉ (bus.step event).readers := by
  cases event with
  | waitForMessage agentId =>
      unfold BusState.step
      dsimp only
      split
      · exact none number
      · intro member
        rcases List.mem_append.mp member with before | now
        · exact none number before
        · have same := List.mem_singleton.mp now
          exact quiet (congrArg BusEvent.waitForMessage (congrArg Prod.fst same).symm)
  | wake place =>
      rcases wake_cases bus place with ⟨idle, -⟩ | ⟨_, _, _, _, -, -, woken, -⟩
      · rw [idle]
        exact none number
      · rw [woken]
        exact fun member => none number (List.mem_of_mem_eraseIdx member)
  | giveUp place => exact fun member => none number (List.mem_of_mem_eraseIdx member)
  | _ => exact none number

/-- Whoever does not read gets nothing. -/
theorem receivedBy_eq_nil {bus : BusState} {agent : String} {event : BusEvent}
    (none : ∀ number, (agent, number) ∉ bus.readers) (quiet : event ≠ .pendingMessages agent) :
    receivedBy agent bus event = [] := by
  unfold receivedBy
  cases event with
  | wake place =>
      rcases wake_cases bus place with
        ⟨-, nothing⟩ | ⟨owner, number, message, _, reading, -, -, handed⟩
      · rw [nothing]
        rfl
      · rw [handed]
        have other : owner ≠ agent := by
          rintro rfl
          exact none number (List.mem_of_getElem? reading)
        simp [other]
  | pendingMessages agentId =>
      have other : agentId ≠ agent := fun same => quiet (same ▸ rfl)
      unfold BusState.received
      simp [List.filter_map, Function.comp_def, other]
  | _ => rfl

theorem Attached.bus (attached : Attached s) : Bus.Attached masterName s.bus :=
  ⟨attached.tidy, fun number member => absurd member (attached.readers number)⟩

theorem lookup_assign_cases {runs : OrderedDict Nat IsolatedRun} {call other : Nat}
    {run found : IsolatedRun} (here : (runs.assign call run).lookup other = some found) :
    found = run ∨ runs.lookup other = some found := by
  rw [OrderedDict.lookup_assign] at here
  split at here
  · exact .inl (Option.some.inj here).symm
  · exact .inr here

/-- A call that is new waits for nothing. -/
theorem Attached.launched (attached : Attached s) {call : Nat} {run : IsolatedRun}
    (own : run.agentId ≠ masterName) (idle : ∀ number, run.phase ≠ .waiting number) :
    Attached { s with runs := s.runs.assign call run } where
  tidy := attached.tidy
  readers := attached.readers
  waiting other found number here holds := by
    rcases lookup_assign_cases here with rfl | before
    · exact absurd holds (idle number)
    · exact attached.waiting other found number before holds
  children other found here := by
    rcases lookup_assign_cases here with rfl | before
    · exact own
    · exact attached.children other found before

theorem attached_bus {event : BusEvent} (attached : Attached s)
    (alone : MasterAlone (.bus event)) : Attached { s with bus := s.bus.step event } where
  tidy := tidy_step s.bus event attached.tidy
  readers := readers_step attached.readers fun same => by
    subst same
    exact alone rfl
  waiting call run number found holds := lookup_step
    (fun same => by
      subst same
      exact alone rfl)
    (attached.waiting call run number found holds)
  children := attached.children

theorem attached_step {event : IsolationEvent} (attached : Attached s)
    (alone : MasterAlone event) : Attached (s.step fields event) := by
  cases event with
  | bus event => exact attached_bus attached alone
  | launch call agentId task workflowId =>
      unfold step
      dsimp only
      split
      · exact attached.launched alone nofun
      · exact attached
  | launchFails call agentId task workflowId error =>
      unfold step
      dsimp only
      split
      · exact attached.launched alone nofun
      · exact attached
  | of call event =>
      cases found : s.runs.lookup call with
      | none =>
          rw [(step_of_missing fields found event).1]
          exact attached
      | some run =>
          rcases step_of_cases fields found event with
            ⟨same, -, -⟩ | ⟨broker, after, effect, same⟩
          · rw [same]
            exact attached
          · rw [same]
            have tables := effect.sameTables
            refine ⟨effect.tidy attached.tidy, attached.readers, ?_, ?_⟩
            · intro other was number here holds
              change broker.queues.lookup masterName = some number
              rw [tables.queues]
              rcases lookup_assign_cases here with rfl | before
              · rcases effect.waiting holds with already | now
                · exact attached.waiting call run number found already
                · exact now
              · exact attached.waiting other was number before holds
            · intro other was here
              rcases lookup_assign_cases here with rfl | before
              · rw [effect.agentId]
                exact attached.children call run found
              · exact attached.children other was before

theorem flows_step {event : IsolationEvent} (attached : Attached s) (alone : MasterAlone event) :
    Flows (step fields) (fun s => s.bus.broker.queueOf masterName) due taken s event := by
  unfold Flows
  dsimp only
  cases event with
  | bus event =>
      have flow : s.bus.broker.queueOf masterName ++ arrivals masterName s.bus event =
          receivedBy masterName s.bus event ++ (s.bus.step event).broker.queueOf masterName :=
        queue_flows attached.bus fun same => by
          subst same
          exact alone rfl
      rw [receivedBy_eq_nil attached.readers fun same => by
        subst same
        exact alone rfl] at flow
      rw [arrivals_eq_due attached.tidy (by decide)] at flow
      refine Eq.trans ?_ flow
      refine congrArg (s.bus.broker.queueOf masterName ++ ·) ?_
      cases event with
      | publish message freshAck =>
          unfold due published forMaster Registry.due
          dsimp only
          split <;> rfl
      | _ => rfl
  | launch call agentId task workflowId =>
      unfold step
      dsimp only
      split <;> exact List.append_nil _
  | launchFails call agentId task workflowId error =>
      unfold step
      dsimp only
      split <;> exact List.append_nil _
  | of call event =>
      unfold due
      cases found : s.runs.lookup call with
      | none =>
          obtain ⟨same, silent, nothing⟩ := step_of_missing fields found event
          rw [same, silent, nothing]
          exact List.append_nil _
      | some run =>
          rcases step_of_cases fields found event with
            ⟨same, silent, nothing⟩ | ⟨broker, after, effect, same⟩
          · rw [same, silent, nothing]
            exact List.append_nil _
          · rw [same]
            exact effect.flows attached.tidy (attached.children call run found)
              fun number => attached.waiting call run number found

theorem attached_empty : Attached {} :=
  ⟨tidy_empty, fun _ => List.not_mem_nil, fun _ _ _ none => absurd none (by simp), 
    fun _ _ none => absurd none (by simp)⟩

/-- In every interleaving the calls get the messages to the master in the order in which they
were published, whoever reports, and a report is recorded as the failure of the run. -/
theorem results_in_order (fields : ResultFields) {events : List IsolationEvent}
    (alone : ∀ event ∈ events, MasterAlone event) :
    along (step fields) (recorded fields) {} events <+:
        (along (step fields) due {} events).map (resultOf fields) ∧
      ∀ task agentId messageId tenant freshAck result,
        resultOf fields ((feedbackOn task agentId messageId tenant result).stamp freshAck) =
          { status := .failed, output := some (result.output.getD "")
            iterations := result.iterations, error := result.error } := by
  refine ⟨?_, resultOf_feedback fields⟩
  have flows : StepsMeet (step fields)
      (Flows (step fields) (fun s => s.bus.broker.queueOf masterName) due taken) {} events :=
    stepsMeet_of_allowed (step fields) Attached
      (fun _ _ attached alone => attached_step attached alone)
      (fun _ _ attached alone => flows_step attached alone) attached_empty
      (stepsMeet_of_forall (step fields) {} alone)
  have all := conserved flows
  have along_recorded : along (step fields) (recorded fields) {} events =
      (along (step fields) taken {} events).map (resultOf fields) := along_map ..
  rw [along_recorded]
  refine ⟨((run (step fields) {} events).bus.broker.queueOf masterName).map (resultOf fields), ?_⟩
  rw [← List.map_append, ← all]
  rfl

/-! ## No run is recorded as completed -/

/-- Nobody but the processes sends to the master. -/
def OthersElsewhere : IsolationEvent → Prop
  | .bus (.publish message _) => message.isBroadcast = false ∧ message.toAgentId ≠ some masterName
  | .launch _ agentId _ _ => agentId ≠ masterName
  | .launchFails _ agentId _ _ _ => agentId ≠ masterName
  | _ => True

/-- The run is not recorded as completed, and its process is gone when it ends. -/
structure Unsuccessful (run : IsolatedRun) : Prop where
  failed : ∀ result, run.phase.result = some result → result.status = .failed
  gone : run.phase.isEnded = true → run.child = .exited

/-- What the master will read is recorded as a failure. -/
structure Sound (fields : ResultFields) (s : Isolation) : Prop where
  tidy : Tidy s.bus.broker
  queued : ∀ number, ∀ message ∈ s.bus.broker.held masterName number,
    (resultOf fields message).status = .failed
  children : ∀ call run, s.runs.lookup call = some run → run.agentId ≠ masterName
  unsuccessful : ∀ call run, s.runs.lookup call = some run → Unsuccessful run

theorem not_concerns {registry : Registry} {message : WorkflowMessage}
    (elsewhere : message.isBroadcast = false ∧ message.toAgentId ≠ some masterName) :
    ¬registry.Concerns masterName message := by
  rintro ⟨-, for_master⟩
  rw [elsewhere.1] at for_master
  exact elsewhere.2 for_master

/-- A publication adds to the master's queue objects at most a message that concerns it. -/
theorem mem_held_publish {broker : InProcessBroker} (tidy : Tidy broker)
    {message found : WorkflowMessage} {freshAck : String} {number : Nat}
    (member : found ∈ (broker.publish message freshAck).held masterName number) :
    found ∈ broker.held masterName number ∨
      (broker.registry.Concerns masterName message ∧ found = message.stamp freshAck) := by
  rw [held_publish tidy] at member
  rcases List.mem_append.mp member with before | now
  · exact .inl before
  · split at now
    · rename_i target
      refine .inr ⟨?_, List.mem_singleton.mp now⟩
      refine (target_iff_concerns tidy (by decide) message).mp ⟨target.1, ?_⟩
      rw [target.2]
      exact nofun
    · cases now

theorem taskMessage_not_concerns {registry : Registry} {run : IsolatedRun}
    (own : run.agentId ≠ masterName) (messageId tenant : String) :
    ¬registry.Concerns masterName (taskMessage run messageId tenant) := by
  rintro ⟨-, for_master⟩
  split at for_master
  · exact for_master.1 rfl
  · exact own (Option.some.inj for_master)

theorem mem_held_takeFirst {broker after : InProcessBroker} {agentId agent : String}
    {number n : Nat} {message found : WorkflowMessage}
    (taken : broker.takeFirst agentId number = some (message, after))
    (member : found ∈ after.held agent n) : found ∈ broker.held agent n := by
  obtain ⟨first, others⟩ := held_takeFirst taken
  by_cases here : agent = agentId ∧ n = number
  · obtain ⟨rfl, rfl⟩ := here
    rw [first]
    exact List.mem_cons_of_mem _ member
  · rw [← others agent n here]
    exact member

section Effects

variable {run after : IsolatedRun} {message : Option (WorkflowMessage × String)}
  {took : List WorkflowMessage} {broker : InProcessBroker}

theorem Effect.queued (effect : Effect fields s run message took broker after)
    (sound : Sound fields s) (own : run.agentId ≠ masterName) (number : Nat) :
    ∀ message ∈ broker.held masterName number, (resultOf fields message).status = .failed := by
  intro found member
  cases effect with
  | sends messageId freshAck tenant =>
      rcases mem_held_publish sound.tidy member with before | ⟨concerns, -⟩
      · exact sound.queued number found before
      · exact absurd concerns (taskMessage_not_concerns own messageId tenant)
  | reports task outcome messageId freshAck tenant =>
      rcases mem_held_publish sound.tidy member with before | ⟨-, rfl⟩
      · exact sound.queued number found before
      · rw [resultOf_feedback]
  | takes n message broker holds taken =>
      exact sound.queued number found (mem_held_takeFirst taken member)
  | reads n message broker child listening taken =>
      exact sound.queued number found (mem_held_takeFirst taken member)
  | _ => exact sound.queued number found member

theorem Effect.unsuccessful (effect : Effect fields s run message took broker after)
    (sound : Sound fields s) (unsuccessful : Unsuccessful run) : Unsuccessful after := by
  cases effect with
  | takes number message broker holds taken =>
      refine ⟨fun result same => ?_, nofun⟩
      cases same
      refine sound.queued number message ?_
      rw [(held_takeFirst taken).1]
      exact List.mem_cons_self
  | timesOut =>
      refine ⟨fun result same => ?_, nofun⟩
      cases same
      rfl
  | stops result stopping =>
      refine ⟨fun recorded same => unsuccessful.failed recorded ?_, fun _ => rfl⟩
      rw [stopping]
      exact same
  | reads number message broker child listening taken =>
      refine ⟨unsuccessful.failed, fun ended => ?_⟩
      have exited := unsuccessful.gone ended
      rw [listening] at exited
      cases exited
  | reports | dies => exact ⟨unsuccessful.failed, fun _ => rfl⟩
  | sends | waits | cancelled => exact ⟨nofun, nofun⟩

end Effects

theorem Sound.launched (sound : Sound fields s) {call : Nat} {run : IsolatedRun}
    (own : run.agentId ≠ masterName) (unsuccessful : Unsuccessful run) :
    Sound fields { s with runs := s.runs.assign call run } where
  tidy := sound.tidy
  queued := sound.queued
  children other found here := by
    rcases lookup_assign_cases here with rfl | before
    · exact own
    · exact sound.children other found before
  unsuccessful other found here := by
    rcases lookup_assign_cases here with rfl | before
    · exact unsuccessful
    · exact sound.unsuccessful other found before

theorem sound_bus {event : BusEvent} (sound : Sound fields s)
    (elsewhere : OthersElsewhere (.bus event)) :
    Sound fields { s with bus := s.bus.step event } where
  tidy := tidy_step s.bus event sound.tidy
  queued number message member := by
    have old (quiet : ∀ message freshAck, event ≠ .publish message freshAck) :=
      sound.queued number message
        ((held_step_sublist s.bus quiet masterName number).subset member)
    cases event with
    | publish published freshAck =>
        rcases mem_held_publish sound.tidy member with before | ⟨concerns, -⟩
        · exact sound.queued number message before
        · exact absurd concerns (not_concerns elsewhere)
    | _ => exact old nofun
  children := sound.children
  unsuccessful := sound.unsuccessful

theorem sound_step {event : IsolationEvent} (sound : Sound fields s)
    (elsewhere : OthersElsewhere event) : Sound fields (s.step fields event) := by
  cases event with
  | bus event => exact sound_bus sound elsewhere
  | launch call agentId task workflowId =>
      unfold step
      dsimp only
      split
      · exact sound.launched elsewhere ⟨nofun, nofun⟩
      · exact sound
  | launchFails call agentId task workflowId error =>
      unfold step
      dsimp only
      split
      · refine sound.launched elsewhere ⟨fun result same => ?_, fun _ => rfl⟩
        cases same
        rfl
      · exact sound
  | of call event =>
      cases found : s.runs.lookup call with
      | none =>
          rw [(step_of_missing fields found event).1]
          exact sound
      | some run =>
          rcases step_of_cases fields found event with
            ⟨same, -, -⟩ | ⟨broker, after, effect, same⟩
          · rw [same]
            exact sound
          · rw [same]
            have own := sound.children call run found
            refine ⟨effect.tidy sound.tidy, effect.queued sound own, ?_, ?_⟩
            · intro other was here
              rcases lookup_assign_cases here with rfl | before
              · rw [effect.agentId]
                exact own
              · exact sound.children other was before
            · intro other was here
              rcases lookup_assign_cases here with rfl | before
              · exact effect.unsuccessful sound (sound.unsuccessful call run found)
              · exact sound.unsuccessful other was before

theorem sound_empty (fields : ResultFields) : Sound fields {} :=
  ⟨tidy_empty, fun _ _ none => absurd none List.not_mem_nil, fun _ _ none => absurd none (by simp),
    fun _ _ none => absurd none (by simp)⟩

/-- Validation as it is for numbers and truth values of the right type. -/
def plainFields : ResultFields where
  int
    | .number literal => parseInt literal
    | _ => none
  bool
    | .bool value => some value
    | _ => none
  fault _ := ""
  int_digits := parseInt_toDigits
  bool_bool _ := rfl

/-- The second process reports first, and the first call takes what it reports. -/
def crossing : List IsolationEvent :=
  [.bus (.subscribe masterName "" ""), .bus (.subscribe "a" "" ""), .bus (.subscribe "b" "" ""),
    .launch 1 "a" "first" "", .launch 2 "b" "second" "",
    .of 1 (.sendTask "1" "" "default"), .of 1 .waitResult,
    .of 2 (.sendTask "2" "" "default"), .of 2 .waitResult,
    .of 2 .childReads,
    .of 2 (.childReports (.ok ⟨.completed, some "done", 1, none⟩) "3" "" "default"),
    .of 1 .wake, .of 1 .terminated]

theorem results_in_order_crossing :
    along (step plainFields) (recorded plainFields) {} crossing <+:
        (along (step plainFields) due {} crossing).map (resultOf plainFields) ∧
      ∀ task agentId messageId tenant freshAck result,
        resultOf plainFields ((feedbackOn task agentId messageId tenant result).stamp freshAck) =
          { status := .failed, output := some (result.output.getD "")
            iterations := result.iterations, error := result.error } :=
  results_in_order plainFields (by simp [crossing, MasterAlone, masterName])

end Isolation

end YouMi.Coordinator
