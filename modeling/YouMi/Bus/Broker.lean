import YouMi.Bus.Message

/-!
# The in-process broker

`InProcessBroker` with the coroutines that run without a suspension as functions.
`wait_for_message` has two parts: the call looks the queue up and holds on to that
queue object, and some time later takes a message from it.  A queue object is known
by its agent and a number; it outlives the subscription it was made for as long as
a reader waits on it.  The observers of `on_message` are left out.
-/

namespace YouMi.Bus

open YouMi.Library YouMi.Python

structure InProcessBroker where
  /-- The number of the queue object of each subscribed agent. -/
  queues : OrderedDict String Nat := []
  subscriptions : OrderedDict String (List String) := []
  workflowMembers : OrderedDict String (List String) := []
  agentTenants : OrderedDict String String := []
  pendingAcks : OrderedDict String WorkflowMessage := []
  workflowCounter : Nat := 0
  /-- What each queue object holds, those no longer in `queues` included. -/
  held : String → Nat → List WorkflowMessage := fun _ _ => []
  queuesMade : Nat := 0

/-- The key of a message in `_pending_acks`. -/
def ackKey (messageId agentId : String) : String := messageId ++ ":" ++ agentId

/-- `f"wf-{count:04d}"`. -/
def workflowName (count : Nat) : String :=
  let digits := (Nat.toDigits 10 count)
  "wf-" ++ String.ofList (List.replicate (4 - digits.length) '0' ++ digits)

namespace InProcessBroker

def subscriptionsOf (broker : InProcessBroker) (agentId : String) : List String :=
  (broker.subscriptions.lookup agentId).getD []

def membersOf (broker : InProcessBroker) (workflowId : String) : List String :=
  (broker.workflowMembers.lookup workflowId).getD []

/-- `self._agent_tenants.get(agent_id, "default")`. -/
def tenantOf (broker : InProcessBroker) (agentId : String) : String :=
  (broker.agentTenants.lookup agentId).getD "default"

/-- `tenant or "default"`. -/
def tenantOrDefault (tenant : String) : String := if tenant = "" then "default" else tenant

/-- The queue object of an agent, made when there is none. -/
def openQueue (broker : InProcessBroker) (agentId : String) : InProcessBroker :=
  if agentId ∈ broker.queues.keys then broker
  else { broker with
    queues := broker.queues.assign agentId broker.queuesMade
    queuesMade := broker.queuesMade + 1 }

def joinWorkflow (broker : InProcessBroker) (agentId workflowId : String) : InProcessBroker :=
  if workflowId = "" then broker
  else { broker with
    subscriptions :=
      broker.subscriptions.assign agentId ((broker.subscriptionsOf agentId).insert workflowId)
    workflowMembers :=
      broker.workflowMembers.assign workflowId ((broker.membersOf workflowId).insert agentId) }

def subscribe (broker : InProcessBroker) (agentId workflowId tenant : String) :
    InProcessBroker :=
  let broker := broker.openQueue agentId
  let broker := { broker with
    subscriptions := broker.subscriptions.assign agentId (broker.subscriptionsOf agentId) }
  let broker := { broker with
    agentTenants := broker.agentTenants.assign agentId (tenantOrDefault tenant) }
  broker.joinWorkflow agentId workflowId

/-- The agent leaves one workflow; a workflow without members is dropped. -/
def discardMember (agentId : String) (members : OrderedDict String (List String))
    (workflowId : String) : OrderedDict String (List String) :=
  let left := ((members.lookup workflowId).getD []).filter (· ≠ agentId)
  if left = [] then members.erase workflowId else members.assign workflowId left

def unsubscribe (broker : InProcessBroker) (agentId : String) : InProcessBroker :=
  { broker with
    workflowMembers :=
      (broker.subscriptionsOf agentId).foldl (discardMember agentId) broker.workflowMembers
    subscriptions := broker.subscriptions.erase agentId
    queues := broker.queues.erase agentId
    agentTenants := broker.agentTenants.erase agentId }

/-- The agents a message is for, before the tenants are compared. -/
def candidates (broker : InProcessBroker) (message : WorkflowMessage) : List String :=
  if message.isBroadcast then
    if message.workflowId ≠ "" then
      (broker.membersOf message.workflowId).filter (· ≠ message.fromAgentId)
    else broker.queues.keys.filter (· ≠ message.fromAgentId)
  else
    match message.toAgentId with
    | some agentId => if agentId ≠ "" then [agentId] else []
    | none => []

def resolveTargets (broker : InProcessBroker) (message : WorkflowMessage) : List String :=
  (broker.candidates message).filter fun agentId => broker.tenantOf agentId == message.tenant

/-- `queue.put` on one queue object. -/
def put (broker : InProcessBroker) (agentId : String) (number : Nat)
    (message : WorkflowMessage) : InProcessBroker :=
  { broker with
    held := fun agent n =>
      if agent = agentId ∧ n = number then broker.held agent n ++ [message]
      else broker.held agent n }

/-- One round of the loop of `publish`. -/
def deliver (message : WorkflowMessage) (broker : InProcessBroker) (targetId : String) :
    InProcessBroker :=
  match broker.queues.lookup targetId with
  | none => broker
  | some number =>
      let broker := broker.put targetId number message
      if message.needsAck then
        { broker with
          pendingAcks := broker.pendingAcks.assign (ackKey message.messageId targetId) message }
      else broker

/-- `freshAck` is the text drawn for a message that needs an `ack_id`. -/
def publish (broker : InProcessBroker) (message : WorkflowMessage) (freshAck : String) :
    InProcessBroker :=
  let message := message.stamp freshAck
  (broker.resolveTargets message).foldl (deliver message) broker

def ack (broker : InProcessBroker) (agentId messageId : String) : InProcessBroker :=
  { broker with pendingAcks := broker.pendingAcks.erase (ackKey messageId agentId) }

/-- The queue object has lost the messages before `left`. -/
def drop (broker : InProcessBroker) (agentId : String) (number : Nat)
    (left : List WorkflowMessage) : InProcessBroker :=
  { broker with
    held := fun agent n => if agent = agentId ∧ n = number then left else broker.held agent n }

/-- A call of `wait_for_message` returns with the first message of the queue object it
holds, which is acknowledged; `none` while the queue is empty. -/
def takeFirst (broker : InProcessBroker) (agentId : String) (number : Nat) :
    Option (WorkflowMessage × InProcessBroker) :=
  match broker.held agentId number with
  | [] => none
  | message :: rest =>
      let broker := broker.drop agentId number rest
      some (message,
        if message.needsAck then broker.ack agentId message.messageId else broker)

def pendingMessages (broker : InProcessBroker) (agentId : String) :
    List WorkflowMessage × InProcessBroker :=
  match broker.queues.lookup agentId with
  | none => ([], broker)
  | some number => (broker.held agentId number, broker.drop agentId number [])

def createWorkflow (broker : InProcessBroker) : InProcessBroker :=
  { broker with
    workflowCounter := broker.workflowCounter + 1
    workflowMembers :=
      broker.workflowMembers.assign (workflowName (broker.workflowCounter + 1)) [] }

/-- What the agent would read now. -/
def queueOf (broker : InProcessBroker) (agentId : String) : List WorkflowMessage :=
  match broker.queues.lookup agentId with
  | none => []
  | some number => broker.held agentId number

end InProcessBroker

/-! ## Interleavings -/

/-- The broker with the calls of `wait_for_message` in progress: for each the agent that
reads and the queue object it holds. -/
structure BusState where
  broker : InProcessBroker := {}
  readers : List (String × Nat) := []

inductive BusEvent where
  | subscribe (agentId workflowId tenant : String)
  | unsubscribe (agentId : String)
  | createWorkflow
  | publish (message : WorkflowMessage) (freshAck : String)
  /-- `wait_for_message` is called. -/
  | waitForMessage (agentId : String)
  /-- The call in progress at this place is given a chance to take a message. -/
  | wake (place : Nat)
  /-- The call at this place times out or is cancelled. -/
  | giveUp (place : Nat)
  | pendingMessages (agentId : String)
  | ack (agentId messageId : String)

namespace BusState

open InProcessBroker

def step (bus : BusState) : BusEvent → BusState
  | .subscribe agentId workflowId tenant =>
      { bus with broker := bus.broker.subscribe agentId workflowId tenant }
  | .unsubscribe agentId => { bus with broker := bus.broker.unsubscribe agentId }
  | .createWorkflow => { bus with broker := bus.broker.createWorkflow }
  | .publish message freshAck => { bus with broker := bus.broker.publish message freshAck }
  | .waitForMessage agentId =>
      match bus.broker.queues.lookup agentId with
      | none => bus
      | some number => { bus with readers := bus.readers ++ [(agentId, number)] }
  | .wake place =>
      match bus.readers[place]? with
      | none => bus
      | some (agentId, number) =>
          match bus.broker.takeFirst agentId number with
          | none => bus
          | some (_, broker) => { broker, readers := bus.readers.eraseIdx place }
  | .giveUp place => { bus with readers := bus.readers.eraseIdx place }
  | .pendingMessages agentId =>
      { bus with broker := (bus.broker.pendingMessages agentId).2 }
  | .ack agentId messageId => { bus with broker := bus.broker.ack agentId messageId }

/-- The messages an event hands over, with the agent in whose name they are read. -/
def received (bus : BusState) : BusEvent → List (String × WorkflowMessage)
  | .wake place =>
      match bus.readers[place]? with
      | none => []
      | some (agentId, number) =>
          match bus.broker.takeFirst agentId number with
          | none => []
          | some (message, _) => [(agentId, message)]
  | .pendingMessages agentId => (bus.broker.pendingMessages agentId).1.map ((agentId, ·))
  | _ => []

end BusState

end YouMi.Bus
