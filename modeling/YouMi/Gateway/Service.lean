import YouMi.Gateway.Events
import YouMi.Gateway.Registry
import YouMi.Library.Runs
import Mathlib.Logic.Function.Basic

/-!
# The gateway service

`GatewayService` and the workers of its pool, as steps from one suspension of a
coroutine to the next.  The objects there are, and what has been published, written and
executed, are part of the state; the service and the pool refer to a registry each.
-/

namespace YouMi.Gateway

open YouMi.Library YouMi.Python

/-- A worker waits for a task, executes one, or was ended by the executor of one. -/
inductive Worker where
  | idle
  | busy (ref : Ref)
  | ended (ref : Ref)
  deriving DecidableEq

structure GatewayService where
  /-- The records that exist, under the numbers below `created`. -/
  records : Ref → TaskRecord := fun _ => {}
  created : Nat := 0
  registries : List TaskRegistry := []
  /-- `registry` of the service and of its pool, among those there are. -/
  serviceRegistry : Nat := 0
  poolRegistry : Nat := 0
  /-- `maxsize` of the queue; there is no limit unless it is positive. -/
  maxsize : Int := 0
  queue : List Ref := []
  /-- Submissions that wait for room in the queue. -/
  waiting : List Ref := []
  workerPrefix : String := "worker"
  workers : List Worker := []
  events : TaskEventHub := {}
  published : List (Ref × TaskRecord) := []
  executions : List (Ref × Execution) := []
  written : List Nat := []

namespace GatewayService

/-! ## Construction -/

/-- `given or TaskRegistry()`, for a registry among those there are: one that is empty
counts as none. -/
def registryOr (registries : List TaskRegistry) (given : Option Nat) : List TaskRegistry × Nat :=
  match given with
  | none => (registries ++ [{}], registries.length)
  | some index =>
      if (registries[index]?).any fun registry => registry.size ≠ 0 then (registries, index)
      else (registries ++ [{}], registries.length)

/-- A service over the objects there are, with a pool of `size` workers if there is an executor:
a size of zero is a `ValueError`.  The pool is handed the registry of the service, and looks
for one in the same way. -/
def create (objects : GatewayService) (given : Option Nat) (size : Option Nat) :
    Option GatewayService :=
  let (registries, serviceRegistry) := registryOr objects.registries given
  match size with
  | none =>
      some { objects with
        registries, serviceRegistry, poolRegistry := serviceRegistry, workers := [], written := [] }
  | some 0 => none
  | some (size + 1) =>
      let (registries, poolRegistry) := registryOr registries (some serviceRegistry)
      some { objects with
        registries, serviceRegistry, poolRegistry, workers := List.replicate (size + 1) .idle,
        written := [] }

/-! ## Reading -/

/-- Whether the status of a record is an end, at present. -/
def finished (s : GatewayService) (ref : Ref) : Bool := (s.records ref).status.finished

def registry (s : GatewayService) (index : Nat) : TaskRegistry := (s.registries[index]?).getD {}

def get (s : GatewayService) (taskId : String) : Option TaskRecord :=
  ((s.registry s.serviceRegistry).get taskId).map s.records

def listTasks (s : GatewayService) (tenant : Option String) (status : Option TaskStatus)
    (limit : Int) : List TaskRecord :=
  (s.registry s.serviceRegistry).list s.records tenant status limit

/-! ## Parts of a step -/

def setWorker (s : GatewayService) (worker : Nat) (state : Worker) : GatewayService :=
  { s with workers := s.workers.set worker state }

def change (s : GatewayService) (ref : Ref) (f : TaskRecord → TaskRecord) : GatewayService :=
  { s with records := Function.update s.records ref (f (s.records ref)) }

/-- `_publish`: the record is put into a registry and its snapshot sent to the subscribers. -/
def publish (s : GatewayService) (index : Nat) (ref : Ref) : GatewayService :=
  let record := s.records ref
  { s with
    registries := s.registries.modify index (·.put s.finished record.taskId ref)
    written := s.written ++ [index]
    events := s.events.publish record.taskId record
    published := s.published ++ [(ref, record)] }

/-- `events.close(record.task_id)`. -/
def closeEvents (s : GatewayService) (ref : Ref) : GatewayService :=
  { s with events := s.events.close (s.records ref).taskId }

def Full (s : GatewayService) : Prop := 0 < s.maxsize ∧ s.maxsize ≤ s.queue.length

instance (s : GatewayService) : Decidable s.Full := inferInstanceAs (Decidable (_ ∧ _))

/-- `queue.put(record)`, up to where it waits for room. -/
def enqueue (s : GatewayService) (ref : Ref) : GatewayService :=
  if s.Full then { s with waiting := s.waiting ++ [ref] } else { s with queue := s.queue ++ [ref] }

/-! ## Submissions -/

/-- A task as it is submitted. -/
structure Submission where
  task : String
  tenant : String := "default"
  metadata : Dict := []
  taskId : Option String := none
  /-- `new_task_id()`. -/
  freshId : String
  now : Rat

def Submission.record (submission : Submission) : TaskRecord where
  taskId :=
    match submission.taskId with
    | none => submission.freshId
    | some taskId => if taskId = "" then submission.freshId else taskId
  task := submission.task
  tenant := if submission.tenant = "" then "default" else submission.tenant
  metadata := submission.metadata
  createdAt := submission.now

/-- There is one more record. -/
def enter (s : GatewayService) (record : TaskRecord) : GatewayService :=
  { s with
    records := Function.update s.records s.created record
    created := s.created + 1 }

def submit (s : GatewayService) (submission : Submission) : GatewayService :=
  ((s.enter submission.record).publish s.serviceRegistry s.created).enqueue s.created

/-- A submission that has waited goes on. -/
def resumed (s : GatewayService) (ref : Ref) : GatewayService :=
  { s with waiting := s.waiting.erase ref, queue := s.queue ++ [ref] }

/-- A submission that waits goes on, if there is room. -/
def resume (s : GatewayService) (ref : Ref) : GatewayService :=
  if ref ∈ s.waiting ∧ ¬s.Full then s.resumed ref else s

/-! ## Workers -/

/-- A record as its worker starts it. -/
def start (workerId : String) (now : Rat) (record : TaskRecord) : TaskRecord :=
  { record with status := .running, startedAt := some now, workerId := workerId }

/-- The outcome as the worker writes it into the record. -/
def conclude (outcome : TaskOutcome) (now : Rat) (record : TaskRecord) : TaskRecord :=
  { record with
    result := outcome.output
    error := outcome.error
    iterations := outcome.iterations
    toolCalls := outcome.toolCalls
    finishedAt := some now
    status := if outcome.success then .completed else .failed }

/-- A worker has taken a task: `_execute` up to the executor. -/
def taken (s : GatewayService) (worker : Nat) (ref : Ref) (rest : List Ref) (now : Rat) :
    GatewayService :=
  let started := ({ s with queue := rest }.setWorker worker (.busy ref)).change ref
    (start (s.workerPrefix ++ "-" ++ toString worker) now)
  started.publish s.poolRegistry ref

/-- A worker that waits takes the first task of the queue. -/
def take (s : GatewayService) (worker : Nat) (now : Rat) : GatewayService :=
  match s.workers[worker]?, s.queue with
  | some .idle, ref :: rest => s.taken worker ref rest now
  | _, _ => s

def logged (s : GatewayService) (ref : Ref) (execution : Execution) : GatewayService :=
  { s with executions := s.executions ++ [(ref, execution)] }

/-- A worker has written an outcome down. -/
def concluded (s : GatewayService) (worker : Nat) (ref : Ref) (execution : Execution)
    (outcome : TaskOutcome) (now : Rat) : GatewayService :=
  let finished := (s.logged ref execution).change ref (conclude outcome now)
  ((finished.publish s.poolRegistry ref).closeEvents ref).setWorker worker .idle

/-- The executor is done: `_execute` from there.  A `CancelledError` ends the worker. -/
def finish (s : GatewayService) (worker : Nat) (execution : Execution) (now : Rat) :
    GatewayService :=
  match s.workers[worker]? with
  | some (.busy ref) =>
      match execution.outcome with
      | none => (s.logged ref execution).setWorker worker (.ended ref)
      | some outcome => s.concluded worker ref execution outcome now
  | _ => s

/-! ## Clients -/

/-- The checks of `stream_events`: an unknown task, or one of another tenant, is a 404. -/
def request (s : GatewayService) (tenant taskId : String) : GatewayService :=
  match s.get taskId with
  | none => s
  | some record =>
      if record.tenant = tenant then
        { s with events := { s.events with clients := s.events.clients ++ [{ taskId }] } }
      else s

/-- A client whose stream begins now. -/
def begun (s : GatewayService) (client : Client) : Client :=
  { client with
    stage := .open
    tasksBefore := s.created
    publishedBefore := s.published.length }

/-- The hub after a client has changed. -/
def setClient (s : GatewayService) (index : Nat) (client : Client) : TaskEventHub :=
  { s.events with clients := s.events.clients.set index client }

/-- The first step of `_generate`: the last snapshot of a finished task, or a subscription. -/
def openStream (s : GatewayService) (index : Nat) : GatewayService :=
  match s.events.clients[index]? with
  | some client =>
      if client.stage = .requested then
        let subscription := (s.setClient index (s.begun client)).subscribe client.taskId index
        match s.get client.taskId with
        | some record =>
            if record.status.finished then
              { s with events := s.setClient index ((s.begun client).send [some record, none]) }
            else { s with events := subscription }
        | none => { s with events := subscription }
      else s
  | none => s

/-- A client takes what is next in its queue; at the end its subscription is removed. -/
def receive (s : GatewayService) (index : Nat) : GatewayService :=
  match s.events.clients[index]? with
  | some client =>
      match client.stage, client.pending with
      | .open, frame :: rest =>
          let hub := s.setClient index
            { client with pending := rest, received := client.received ++ [frame] }
          { s with events := if frame.isSome then hub else hub.remove client.taskId index }
      | _, _ => s
  | none => s

/-- A client goes away. -/
def disconnect (s : GatewayService) (index : Nat) : GatewayService :=
  match s.events.clients[index]? with
  | some client =>
      { s with events :=
          (s.setClient index { client with stage := .gone }).remove client.taskId index }
  | none => s

/-! ## Steps -/

inductive ClientAction where
  | request (tenant taskId : String)
  | openStream (client : Nat)
  | receive (client : Nat)
  | disconnect (client : Nat)

inductive Action where
  | submit (submission : Submission)
  | resume (ref : Ref)
  | take (worker : Nat) (now : Rat)
  | finish (worker : Nat) (execution : Execution) (now : Rat)
  | client (action : ClientAction)

def clientStep (s : GatewayService) : ClientAction → GatewayService
  | .request tenant taskId => s.request tenant taskId
  | .openStream client => s.openStream client
  | .receive client => s.receive client
  | .disconnect client => s.disconnect client

def step (s : GatewayService) : Action → GatewayService
  | .submit submission => s.submit submission
  | .resume ref => s.resume ref
  | .take worker now => s.take worker now
  | .finish worker execution now => s.finish worker execution now
  | .client action => s.clientStep action

section Cases

variable (s : GatewayService)

/-- What a step of the queue or of a worker does, if it does anything. -/
theorem resume_cases (ref : Ref) :
    s.resume ref = s ∨ ref ∈ s.waiting ∧ s.resume ref = s.resumed ref := by
  unfold resume
  split
  · rename_i goes
    exact .inr ⟨goes.1, rfl⟩
  · exact .inl rfl

theorem take_cases (worker : Nat) (now : Rat) :
    s.take worker now = s ∨ ∃ ref rest, s.workers[worker]? = some .idle ∧ s.queue = ref :: rest ∧
      s.take worker now = s.taken worker ref rest now := by
  unfold take
  split
  · rename_i ref rest idle first
    exact .inr ⟨ref, rest, idle, first, rfl⟩
  · exact .inl rfl

theorem finish_cases (worker : Nat) (execution : Execution) (now : Rat) :
    s.finish worker execution now = s ∨ ∃ ref, s.workers[worker]? = some (.busy ref) ∧
      (execution = .cancelled ∧ s.finish worker execution now =
          (s.logged ref .cancelled).setWorker worker (.ended ref) ∨
        ∃ outcome, execution.outcome = some outcome ∧
          s.finish worker execution now = s.concluded worker ref execution outcome now) := by
  unfold finish
  split
  · rename_i ref busy
    refine .inr ⟨ref, busy, ?_⟩
    cases execution with
    | returned outcome => exact .inr ⟨outcome, rfl, rfl⟩
    | raised typeName message => exact .inr ⟨_, rfl, rfl⟩
    | cancelled => exact .inl ⟨rfl, rfl⟩
  · exact .inl rfl

end Cases

/-- Clients change the hub and nothing else. -/
theorem clientStep_eq (s : GatewayService) (action : ClientAction) :
    ∃ hub, s.clientStep action = { s with events := hub } := by
  cases action with
  | request tenant taskId =>
      change ∃ hub, s.request tenant taskId = _
      unfold request
      split
      · exact ⟨s.events, rfl⟩
      · split
        · exact ⟨_, rfl⟩
        · exact ⟨s.events, rfl⟩
  | openStream client =>
      change ∃ hub, s.openStream client = _
      unfold openStream
      split
      · split
        · dsimp only
          split
          · split
            · exact ⟨_, rfl⟩
            · exact ⟨_, rfl⟩
          · exact ⟨_, rfl⟩
        · exact ⟨s.events, rfl⟩
      · exact ⟨s.events, rfl⟩
  | receive client =>
      change ∃ hub, s.receive client = _
      unfold receive
      split
      · split
        · exact ⟨_, rfl⟩
        · exact ⟨s.events, rfl⟩
      · exact ⟨s.events, rfl⟩
  | disconnect client =>
      change ∃ hub, s.disconnect client = _
      unfold disconnect
      split
      · exact ⟨_, rfl⟩
      · exact ⟨s.events, rfl⟩

end GatewayService

end YouMi.Gateway
