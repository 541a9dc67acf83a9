import YouMi.Coordinator.ToolRequests

/-!
# Who takes which message

A delegation, a tool request and a master's listener each take the next message of
their agent's queue.  The record here keeps, beside the bus, what was put on each
queue object, how much of it was read, and which message was sent in answer to which
request.
-/

namespace YouMi.Coordinator

open YouMi.Core YouMi.Bus YouMi.Library InProcessBroker

/-- What a call of `wait_for_message` waits for. -/
inductive Purpose where
  /-- The result of the delegation with this message id. -/
  | delegation (self : BusAgent) (payload : DelegationPayload) (request : String)
  /-- The answer to the tool request with this message id. -/
  | toolRequest (request : String)
  /-- Tool requests, at a master. -/
  | listener
  /-- Any message. -/
  | other

/-- What becomes of a message that is taken. -/
inductive Use where
  | result (result : ActionResult)
  | answer (approved : Bool)
  | handled
  | dropped

def Purpose.use (approved : String → Except Fault Bool) (message : WorkflowMessage) :
    Purpose → Use
  | .delegation self payload _ => .result (endDelegation self payload (some message))
  | .toolRequest _ =>
      if message.msgType = .toolResponse then .answer (endToolRequest approved (some message))
      else .dropped
  | .listener => if message.msgType = .toolRequest then .handled else .dropped
  | .other => .handled

/-- A call of `wait_for_message` in progress. -/
structure Wait where
  agentId : String
  number : Nat
  purpose : Purpose

structure Exchange where
  broker : InProcessBroker := {}
  waits : List Wait := []
  /-- What was put on each queue object so far. -/
  put : String → Nat → List WorkflowMessage := fun _ _ => []
  /-- How many of these were read. -/
  reads : String → Nat → Nat := fun _ _ => 0
  /-- The replies, each with the message id of the request it answers. -/
  answers : List (WorkflowMessage × String) := []

inductive ExchangeEvent where
  | subscribe (agentId workflowId tenant : String)
  | unsubscribe (agentId : String)
  | createWorkflow
  /-- Any other message. -/
  | publish (message : WorkflowMessage) (freshAck : String)
  /-- `_execute_delegation`, which publishes and begins to wait. -/
  | delegate (self : BusAgent) (payload : DelegationPayload) (messageId freshAck : String)
  /-- `request_tool`, which publishes and begins to wait. -/
  | requestTool (self : BusAgent) (requestPayload messageId freshAck : String)
  /-- A round of a master's listener. -/
  | listen (agentId : String)
  | waitForMessage (agentId : String)
  | answerRequest (master : BusAgent) (request : WorkflowMessage) (decision : ToolDecision)
      (content messageId freshAck : String)
  | sendResult (self : BusAgent) (workflowId : String) (task : WorkflowMessage)
      (outcome : Except Fault Core.TaskResult) (messageId freshAck : String)
  | wake (place : Nat)
  | giveUp (place : Nat)
  | pendingMessages (agentId : String)

namespace Exchange

def publish (state : Exchange) (message : WorkflowMessage) (freshAck : String) : Exchange :=
  { state with
    broker := state.broker.publish message freshAck
    put := fun agent n =>
      state.put agent n ++
        if agent ∈ state.broker.resolveTargets message ∧
            state.broker.queues.lookup agent = some n then
          [message.stamp freshAck]
        else [] }

def beginWait (state : Exchange) (agentId : String) (purpose : Purpose) : Exchange :=
  match state.broker.queues.lookup agentId with
  | none => state
  | some number => { state with waits := state.waits ++ [{ agentId, number, purpose }] }

/-- A reply to a request is published. -/
def reply (state : Exchange) (message : WorkflowMessage) (freshAck request : String) : Exchange :=
  { state.publish message freshAck with
    answers := state.answers ++ [(message.stamp freshAck, request)] }

/-- So many more messages of a queue object were read. -/
def read (state : Exchange) (agentId : String) (number count : Nat) : Exchange :=
  { state with
    reads := fun agent n =>
      if agent = agentId ∧ n = number then state.reads agent n + count else state.reads agent n }

section Step

variable (format : String → String → Except Fault String) (typeName : Fault → String)

def step (state : Exchange) : ExchangeEvent → Exchange
  | .subscribe agentId workflowId tenant =>
      { state with broker := state.broker.subscribe agentId workflowId tenant }
  | .unsubscribe agentId => { state with broker := state.broker.unsubscribe agentId }
  | .createWorkflow => { state with broker := state.broker.createWorkflow }
  | .publish message freshAck => state.publish message freshAck
  | .delegate self payload messageId freshAck =>
      match beginDelegation format self payload messageId with
      | .published message =>
          (state.publish message freshAck).beginWait self.agentId
            (.delegation self payload messageId)
      | _ => state
  | .requestTool self requestPayload messageId freshAck =>
      if self.connected then
        (state.publish (toolRequestMessage self requestPayload messageId) freshAck).beginWait
          self.agentId (.toolRequest messageId)
      else state
  | .listen agentId => state.beginWait agentId .listener
  | .waitForMessage agentId => state.beginWait agentId .other
  | .answerRequest master request decision content messageId freshAck =>
      state.reply (toolResponseMessage master request decision content messageId) freshAck
        request.messageId
  | .sendResult self workflowId task outcome messageId freshAck =>
      match feedbackMessage workflowId typeName self task messageId outcome with
      | none => state
      | some message => state.reply message freshAck task.messageId
  | .wake place =>
      match state.waits[place]? with
      | none => state
      | some wait =>
          match state.broker.takeFirst wait.agentId wait.number with
          | none => state
          | some (_, broker) =>
              { state.read wait.agentId wait.number 1 with
                broker, waits := state.waits.eraseIdx place }
  | .giveUp place => { state with waits := state.waits.eraseIdx place }
  | .pendingMessages agentId =>
      match state.broker.queues.lookup agentId with
      | none => state
      | some number =>
          { state.read agentId number (state.broker.held agentId number).length with
            broker := (state.broker.pendingMessages agentId).2 }

end Step

/-- The message is one the wait is for: the addressed agent's answer to this very request, an
answer to this tool request, or a tool request. -/
def Expects (state : Exchange) (message : WorkflowMessage) : Purpose → Prop
  | .delegation _ payload request =>
      (message, request) ∈ state.answers ∧ message.fromAgentId = payload.targetAgentId
  | .toolRequest request => (message, request) ∈ state.answers ∧ message.msgType = .toolResponse
  | .listener => message.msgType = .toolRequest
  | .other => True

/-- A message that is taken for a reply is the one that is waited for, and none is dropped. -/
def RightUse (state : Exchange) (message : WorkflowMessage) (purpose : Purpose) : Use → Prop
  | .result _ => state.Expects message purpose
  | .answer _ => state.Expects message purpose
  | .handled => True
  | .dropped => False

/-- Whatever message a wait is given is used rightly. -/
def NoneMistaken (approved : String → Except Fault Bool) (state : Exchange) :
    ExchangeEvent → Prop
  | .wake place =>
      ∀ wait message broker, state.waits[place]? = some wait →
        state.broker.takeFirst wait.agentId wait.number = some (message, broker) →
        state.RightUse message wait.purpose (wait.purpose.use approved message)
  | _ => True

/-- When a wait is given a message, the first one put on its queue object that was not read
is one the wait is for. -/
def InOrder (state : Exchange) : ExchangeEvent → Prop
  | .wake place =>
      ∀ wait message, state.waits[place]? = some wait →
        (state.put wait.agentId wait.number)[state.reads wait.agentId wait.number]? =
          some message →
        state.Expects message wait.purpose
  | _ => True

/-- Every queue object holds what was put on it and not read. -/
structure Accounted (state : Exchange) : Prop where
  tidy : Tidy state.broker
  bounded : ∀ agentId number,
    state.reads agentId number ≤ (state.put agentId number).length
  unread : ∀ agentId number,
    (state.put agentId number).drop (state.reads agentId number) =
      state.broker.held agentId number

variable {state : Exchange}

theorem accounted_publish (accounted : Accounted state) (message : WorkflowMessage)
    (freshAck : String) : Accounted (state.publish message freshAck) where
  tidy := tidy_publish accounted.tidy message freshAck
  bounded agentId number := by
    unfold publish
    rw [List.length_append]
    exact Nat.le_add_right_of_le (accounted.bounded agentId number)
  unread agentId number := by
    unfold publish
    dsimp only
    rw [held_publish accounted.tidy, ← accounted.unread agentId number,
      List.drop_append_of_le_length (accounted.bounded agentId number)]

theorem accounted_beginWait (accounted : Accounted state) (agentId : String)
    (purpose : Purpose) : Accounted (state.beginWait agentId purpose) := by
  unfold beginWait
  split
  · exact accounted
  · exact ⟨accounted.tidy, accounted.bounded, accounted.unread⟩

theorem accounted_reply (accounted : Accounted state) (message : WorkflowMessage)
    (freshAck request : String) : Accounted (state.reply message freshAck request) :=
  have published := accounted_publish accounted message freshAck
  ⟨published.tidy, published.bounded, published.unread⟩

/-- A broker with the same queue contents keeps the account. -/
theorem accounted_sameHeld (accounted : Accounted state) {broker : InProcessBroker}
    (tidy : Tidy broker) (same : broker.held = state.broker.held) :
    Accounted { state with broker } where
  tidy := tidy
  bounded := accounted.bounded
  unread agentId number := by
    dsimp only
    rw [same]
    exact accounted.unread agentId number

/-- Reading the first messages of one queue object is counted there. -/
theorem accounted_read (accounted : Accounted state) {broker : InProcessBroker}
    {agentId : String} {number : Nat} (count : Nat) (tidy : Tidy broker)
    (enough : count ≤ (state.broker.held agentId number).length)
    (left : broker.held agentId number = (state.broker.held agentId number).drop count)
    (others : ∀ agent n, ¬(agent = agentId ∧ n = number) →
      broker.held agent n = state.broker.held agent n) :
    Accounted { state.read agentId number count with broker } where
  tidy := tidy
  bounded agent n := by
    unfold read
    dsimp only
    split
    · rename_i here
      obtain ⟨rfl, rfl⟩ := here
      have unread := congrArg List.length (accounted.unread agent n)
      rw [List.length_drop] at unread
      have bound := accounted.bounded agent n
      omega
    · exact accounted.bounded agent n
  unread agent n := by
    unfold read
    dsimp only
    split
    · rename_i here
      obtain ⟨rfl, rfl⟩ := here
      rw [left, ← accounted.unread agent n, List.drop_drop]
    · rename_i other
      rw [others agent n other]
      exact accounted.unread agent n

section Step

variable {format : String → String → Except Fault String} {typeName : Fault → String}

theorem accounted_step (state : Exchange) (event : ExchangeEvent)
    (accounted : Accounted state) : Accounted (state.step format typeName event) := by
  cases event with
  | subscribe agentId workflowId tenant =>
      exact accounted_sameHeld accounted (tidy_subscribe accounted.tidy ..) (held_subscribe ..)
  | unsubscribe agentId =>
      exact accounted_sameHeld accounted (tidy_unsubscribe accounted.tidy _) rfl
  | createWorkflow => exact accounted_sameHeld accounted (tidy_createWorkflow accounted.tidy) rfl
  | publish message freshAck => exact accounted_publish accounted message freshAck
  | delegate self payload messageId freshAck =>
      unfold step
      dsimp only
      split
      · exact accounted_beginWait (accounted_publish accounted ..) ..
      · exact accounted
  | requestTool self requestPayload messageId freshAck =>
      unfold step
      dsimp only
      split
      · exact accounted_beginWait (accounted_publish accounted ..) ..
      · exact accounted
  | listen agentId => exact accounted_beginWait accounted ..
  | waitForMessage agentId => exact accounted_beginWait accounted ..
  | answerRequest master request decision content messageId freshAck =>
      exact accounted_reply accounted ..
  | sendResult self workflowId task outcome messageId freshAck =>
      unfold step
      dsimp only
      split
      · exact accounted
      · exact accounted_reply accounted ..
  | wake place =>
      unfold step
      dsimp only
      split
      · exact accounted
      · rename_i wait _
        split
        · exact accounted
        · rename_i message broker taken
          obtain ⟨first, others⟩ := held_takeFirst taken
          have read := accounted_read accounted 1 (tidy_takeFirst accounted.tidy taken)
            (by rw [first]; simp) (by rw [first]; rfl) others
          exact ⟨read.tidy, read.bounded, read.unread⟩
  | giveUp place => exact ⟨accounted.tidy, accounted.bounded, accounted.unread⟩
  | pendingMessages agentId =>
      unfold step
      dsimp only
      split
      · exact accounted
      · rename_i number found
        refine accounted_read accounted _ (tidy_pendingMessages accounted.tidy agentId)
          (Nat.le_refl _) ?_ ?_
        · rw [held_pendingMessages, if_pos ⟨rfl, found⟩, List.drop_length]
        · intro agent n other
          rw [held_pendingMessages, if_neg]
          rintro ⟨rfl, same⟩
          exact other ⟨rfl, Option.some.inj (same.symm.trans found)⟩

end Step

/-- What is done with a message is right exactly if it is one the wait is for. -/
theorem rightUse_iff_expects (approved : String → Except Fault Bool)
    (message : WorkflowMessage) (purpose : Purpose) :
    state.RightUse message purpose (purpose.use approved message) ↔
      state.Expects message purpose := by
  cases purpose with
  | delegation self payload request => exact Iff.rfl
  | toolRequest request =>
      unfold Purpose.use
      dsimp only
      by_cases response : message.msgType = .toolResponse
      · rw [if_pos response]
        exact Iff.rfl
      · rw [if_neg response]
        exact iff_of_false id fun expected => response expected.2
  | listener =>
      unfold Purpose.use Expects
      dsimp only
      by_cases request : message.msgType = .toolRequest
      · rw [if_pos request]
        exact iff_of_true trivial request
      · rw [if_neg request]
        exact iff_of_false id request
  | other => exact Iff.rfl

/-- The first unread message of a queue object is the first it holds. -/
theorem first_unread (accounted : Accounted state) (agentId : String) (number : Nat) :
    (state.put agentId number)[state.reads agentId number]? =
      (state.broker.held agentId number).head? := by
  rw [← accounted.unread agentId number, List.head?_drop]

theorem noneMistaken_iff_inOrder (approved : String → Except Fault Bool)
    (accounted : Accounted state) (event : ExchangeEvent) :
    state.NoneMistaken approved event ↔ state.InOrder event := by
  cases event with
  | wake place =>
      unfold NoneMistaken InOrder
      dsimp only
      constructor
      · intro right wait message waiting next
        rw [first_unread accounted] at next
        obtain ⟨rest, held⟩ := List.head?_eq_some_iff.mp next
        obtain ⟨broker, taken⟩ := takeFirst_of_held held
        exact (rightUse_iff_expects approved message wait.purpose).mp
          (right wait message broker waiting taken)
      · intro ordered wait message broker waiting taken
        refine (rightUse_iff_expects approved message wait.purpose).mpr (ordered wait message waiting ?_)
        rw [first_unread accounted, (held_takeFirst taken).1]
        rfl
  | _ => exact Iff.rfl

theorem accounted_empty : Accounted {} :=
  ⟨tidy_empty, fun _ _ => Nat.le_refl _, fun _ _ => rfl⟩

/--
In every run from an empty broker, no message is mistaken for a reply or dropped
by a wait exactly if each wait that is given a message comes when the next unread
message of its queue is one it is for.
-/
theorem noneMistaken_throughout_iff (format : String → String → Except Fault String)
    (typeName : Fault → String) (approved : String → Except Fault Bool)
    (events : List ExchangeEvent) :
    StepsMeet (step format typeName) (NoneMistaken approved) {} events ↔
      StepsMeet (step format typeName) InOrder {} events :=
  stepsMeet_congr (step format typeName) Accounted accounted_step
    (fun _ event accounted => noneMistaken_iff_inOrder approved accounted event)
    accounted_empty events

/-- A status message of a third agent is taken for the result of a delegation. -/
theorem status_taken_for_result :
    ¬StepsMeet (step (fun template _ => .ok template) fun _ => "")
      (NoneMistaken fun _ => .ok true) {}
      [.subscribe "a" "" "default", .subscribe "b" "" "default",
        .delegate { agentId := "a" } { targetAgentId := "b" } "1" "k",
        .publish { messageId := "2", fromAgentId := "c", toAgentId := some "a" } "",
        .wake 0] := by
  rintro ⟨-, -, -, -, right, -⟩
  have expected := right _ _ _ rfl rfl
  cases expected.1

end Exchange

end YouMi.Coordinator
