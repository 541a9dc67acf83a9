import YouMi.Bus.Server
import YouMi.Bus.BrokerLaws

/-!
# Messages on their way to a remote subscriber

A message that needs an acknowledgement should at every moment be sent, or wait in
its subscriber's queue, or have a pending entry.  The push loop takes it from the
queue and drops the entry before it sends it.
-/

namespace YouMi.Bus

open YouMi.Library InProcessBroker

namespace BusServer

/-- The message an event publishes, with the `ack_id` it may be given. -/
def published (server : BusServer) : ServerEvent → Option (WorkflowMessage × String)
  | .publish message freshAck => some (message, freshAck)
  | .receive connection (.message message freshAck) =>
      match server.sessions.lookup connection with
      | none => none
      | some session =>
          if session.isOpen then some (server.attributed session.agentId message, freshAck)
          else none
  | _ => none

/-- The queues an event puts a message into, by their agents. -/
def putBy (server : BusServer) (event : ServerEvent) : List (String × WorkflowMessage) :=
  match server.published event with
  | none => []
  | some (message, freshAck) =>
      ((server.broker.resolveTargets message).filter fun agent =>
        (server.broker.queues.lookup agent).isSome).map fun agent =>
          (agent, message.stamp freshAck)

/-- What an event sends on a socket, with the agent whose socket it is. -/
def sentBy (server : BusServer) : ServerEvent → List (String × WorkflowMessage)
  | .pushTake connection .sent =>
      match server.pushTaken connection with
      | none => []
      | some (session, message, _) => [(session.agentId, message)]
  | .pushResume connection .sent =>
      match server.sessions.lookup connection with
      | none => []
      | some session =>
          match session.push with
          | .sending message => [(session.agentId, message)]
          | _ => []
  | _ => []

end BusServer

/-- A server with what was put into queues and what was sent on sockets so far. -/
structure PushRecord where
  server : BusServer := {}
  put : List (String × WorkflowMessage) := []
  sent : List (String × WorkflowMessage) := []

namespace PushRecord

def step (history : PushRecord) (event : ServerEvent) : PushRecord where
  server := history.server.step event
  put := history.put ++ history.server.putBy event
  sent := history.sent ++ history.server.sentBy event

/-- A message that was put into the agent's queue and needs an acknowledgement. -/
def Owed (history : PushRecord) (agent : String) (message : WorkflowMessage) : Prop :=
  (agent, message) ∈ history.put ∧ message.needsAck = true

def Sent (history : PushRecord) (agent : String) (message : WorkflowMessage) : Prop :=
  (agent, message) ∈ history.sent

def Queued (history : PushRecord) (agent : String) (message : WorkflowMessage) : Prop :=
  message ∈ history.server.broker.queueOf agent

def Pending (history : PushRecord) (agent : String) (message : WorkflowMessage) : Prop :=
  history.server.broker.pendingAcks.lookup (ackKey message.messageId agent) ≠ none

/-- None of the messages that are owed has disappeared. -/
def NoneLost (history : PushRecord) : Prop :=
  ∀ agent message, history.Owed agent message →
    history.Sent agent message ∨ history.Queued agent message ∨ history.Pending agent message

/-- What waits in an agent's queue besides the first message of one queue object. -/
def queuedBehind (history : PushRecord) (agentId : String) (number : Nat) (agent : String) :
    List WorkflowMessage :=
  if agent = agentId ∧ history.server.broker.queues.lookup agent = some number then
    (history.server.broker.queueOf agent).tail
  else history.server.broker.queueOf agent

/-- Whoever shares the entry of a message that a push loop takes keeps another hold: it is
the message and is sent at once, or it was sent before, or it still waits in its queue. -/
def TakenSafely (history : PushRecord) (agentId : String) (number : Nat)
    (taken : WorkflowMessage) (outcome : SendOutcome) : Prop :=
  ∀ agent message, history.Owed agent message →
    ackKey message.messageId agent = ackKey taken.messageId agentId →
      (outcome = .sent ∧ agent = agentId ∧ message = taken) ∨ history.Sent agent message ∨
        message ∈ history.queuedBehind agentId number agent

/-- No step takes away the last hold on a message: a push loop takes messages safely, a client
acknowledges what was sent or still waits, and a queue is dropped when what waits in it was
sent or has its entry. -/
def Careful (history : PushRecord) : ServerEvent → Prop
  | .pushTake connection outcome =>
      ∀ session number taken rest,
        history.server.sessions.lookup connection = some session →
        session.push = .waiting number →
        history.server.broker.held session.agentId number = taken :: rest →
        taken.needsAck = true → history.TakenSafely session.agentId number taken outcome
  | .receive connection (.ack messageId) =>
      ∀ session, history.server.sessions.lookup connection = some session →
        session.isOpen = true → messageId ≠ "" →
        ∀ agent message, history.Owed agent message →
          ackKey message.messageId agent = ackKey messageId session.agentId →
          history.Sent agent message ∨ history.Queued agent message
  | .disconnect connection =>
      ∀ session, history.server.sessions.lookup connection = some session →
        session.isOpen = true → session.agentId ≠ "" →
        ∀ message, history.Owed session.agentId message →
          history.Queued session.agentId message →
          history.Sent session.agentId message ∨ history.Pending session.agentId message
  | _ => True

variable {history : PushRecord}

/-- Holds that are all kept keep every message. -/
theorem NoneLost.of_kept {after : PushRecord} (kept : NoneLost history)
    (put : after.put = history.put)
    (sent : ∀ agent message, history.Sent agent message → after.Sent agent message)
    (queued : ∀ agent message, history.Queued agent message → after.Queued agent message)
    (pending : ∀ agent message, history.Pending agent message → after.Pending agent message) :
    NoneLost after := by
  intro agent message owed
  unfold Owed at owed
  rw [put] at owed
  rcases kept agent message owed with wasSent | waits | entry
  · exact .inl (sent agent message wasSent)
  · exact .inr (.inl (queued agent message waits))
  · exact .inr (.inr (pending agent message entry))

theorem sent_step {event : ServerEvent} {agent : String} {message : WorkflowMessage}
    (sent : history.Sent agent message) : (history.step event).Sent agent message :=
  List.mem_append_left _ sent

theorem put_step {event : ServerEvent} (silent : history.server.published event = none) :
    (history.step event).put = history.put := by
  unfold step BusServer.putBy
  rw [silent]
  exact List.append_nil _

/-- What is published waits in the queues it is put into, and takes no hold away. -/
theorem noneLost_published {event : ServerEvent} {message : WorkflowMessage}
    {freshAck : String} (tidy : Tidy history.server.broker) (kept : NoneLost history)
    (published : history.server.published event = some (message, freshAck))
    (broker : (history.server.step event).broker =
      history.server.broker.publish message freshAck) :
    NoneLost (history.step event) := by
  intro agent owed ⟨member, needed⟩
  rcases List.mem_append.mp member with old | new
  · rcases kept agent owed ⟨old, needed⟩ with wasSent | waits | entry
    · exact .inl (sent_step wasSent)
    · refine .inr (.inl ?_)
      unfold Queued step
      rw [broker, queueOf_publish tidy]
      exact List.mem_append_left _ waits
    · refine .inr (.inr ?_)
      unfold Pending step
      rw [broker]
      exact pendingAcks_publish message freshAck entry
  · refine .inr (.inl ?_)
    unfold BusServer.putBy at new
    rw [published] at new
    obtain ⟨target, chosen, same⟩ := List.mem_map.mp new
    obtain ⟨rfl, rfl⟩ := Prod.mk.inj same
    obtain ⟨isTarget, subscribed⟩ := List.mem_filter.mp chosen
    unfold Queued step
    rw [broker, queueOf_publish tidy, if_pos ⟨isTarget, Option.isSome_iff_ne_none.mp subscribed⟩]
    exact List.mem_append_right _ List.mem_cons_self

/-- A step that leaves the broker as it is loses nothing. -/
theorem noneLost_sameBroker {event : ServerEvent} (kept : NoneLost history)
    (silent : history.server.published event = none)
    (same : (history.server.step event).broker = history.server.broker) :
    NoneLost (history.step event) := by
  refine kept.of_kept (put_step silent) (fun _ _ => sent_step) ?_ ?_
  · intro agent message waits
    unfold Queued step
    rw [same]
    exact waits
  · intro agent message entry
    unfold Pending step
    rw [same]
    exact entry

theorem noneLost_subscribed {event : ServerEvent} {agentId workflowId tenant : String}
    (tidy : Tidy history.server.broker) (kept : NoneLost history)
    (silent : history.server.published event = none)
    (broker : (history.server.step event).broker =
      history.server.broker.subscribe agentId workflowId tenant) :
    NoneLost (history.step event) := by
  refine kept.of_kept (put_step silent) (fun _ _ => sent_step) ?_ ?_
  · intro agent message waits
    unfold Queued step
    rw [broker, queueOf_subscribe tidy]
    exact waits
  · intro agent message entry
    unfold Pending step
    rw [broker, pendingAcks_subscribe]
    exact entry

theorem owed_step_iff {event : ServerEvent} (silent : history.server.published event = none)
    (agent : String) (message : WorkflowMessage) :
    (history.step event).Owed agent message ↔ history.Owed agent message := by
  unfold Owed
  rw [put_step silent]

theorem sent_step_iff {event : ServerEvent} (unsent : history.server.sentBy event = [])
    (agent : String) (message : WorkflowMessage) :
    (history.step event).Sent agent message ↔ history.Sent agent message := by
  unfold Sent step
  rw [unsent, List.append_nil]

/-- A client's acknowledgement. -/
theorem noneLost_ack_iff {event : ServerEvent} {agentId messageId : String}
    (kept : NoneLost history) (silent : history.server.published event = none)
    (unsent : history.server.sentBy event = [])
    (broker : (history.server.step event).broker =
      history.server.broker.ack agentId messageId) :
    NoneLost (history.step event) ↔
      ∀ agent message, history.Owed agent message →
        ackKey message.messageId agent = ackKey messageId agentId →
        history.Sent agent message ∨ history.Queued agent message := by
  have queued : ∀ agent message,
      (history.step event).Queued agent message ↔ history.Queued agent message := by
    intro agent message
    unfold Queued step
    rw [broker]
    rfl
  have pending : ∀ agent message, (history.step event).Pending agent message ↔
      ackKey message.messageId agent ≠ ackKey messageId agentId ∧
        history.Pending agent message := by
    intro agent message
    unfold Pending step
    rw [broker]
    unfold InProcessBroker.ack
    rw [OrderedDict.lookup_erase]
    split <;> simp [*]
  constructor
  · intro after agent message owed sameKey
    rcases after agent message ((owed_step_iff silent agent message).mpr owed) with
      wasSent | waits | entry
    · exact .inl ((sent_step_iff unsent agent message).mp wasSent)
    · exact .inr ((queued agent message).mp waits)
    · exact absurd sameKey ((pending agent message).mp entry).1
  · intro careful agent message owed
    have owed := (owed_step_iff silent agent message).mp owed
    by_cases sameKey : ackKey message.messageId agent = ackKey messageId agentId
    · rcases careful agent message owed sameKey with wasSent | waits
      · exact .inl (sent_step wasSent)
      · exact .inr (.inl ((queued agent message).mpr waits))
    · rcases kept agent message owed with wasSent | waits | entry
      · exact .inl (sent_step wasSent)
      · exact .inr (.inl ((queued agent message).mpr waits))
      · exact .inr (.inr ((pending agent message).mpr ⟨sameKey, entry⟩))

/-- A cleanup drops the queue of the agent. -/
theorem noneLost_cleanup_iff {event : ServerEvent} {agentId : String}
    (kept : NoneLost history) (silent : history.server.published event = none)
    (unsent : history.server.sentBy event = [])
    (broker : (history.server.step event).broker = history.server.broker.unsubscribe agentId) :
    NoneLost (history.step event) ↔
      ∀ message, history.Owed agentId message → history.Queued agentId message →
        history.Sent agentId message ∨ history.Pending agentId message := by
  have pending : ∀ agent message,
      (history.step event).Pending agent message ↔ history.Pending agent message := by
    intro agent message
    unfold Pending step
    rw [broker]
    rfl
  constructor
  · intro after message owed _
    rcases after agentId message ((owed_step_iff silent agentId message).mpr owed) with
      wasSent | waits | entry
    · exact .inl ((sent_step_iff unsent agentId message).mp wasSent)
    · unfold Queued step at waits
      rw [broker, queueOf_unsubscribe_self] at waits
      cases waits
    · exact .inr ((pending agentId message).mp entry)
  · intro careful agent message owed
    have owed := (owed_step_iff silent agent message).mp owed
    rcases kept agent message owed with wasSent | waits | entry
    · exact .inl (sent_step wasSent)
    · by_cases same : agent = agentId
      · subst same
        rcases careful message owed waits with wasSent | entry
        · exact .inl (sent_step wasSent)
        · exact .inr (.inr ((pending agent message).mpr entry))
      · refine .inr (.inl ?_)
        unfold Queued step
        rw [broker, queueOf_unsubscribe_ne _ same]
        exact waits
    · exact .inr (.inr ((pending agent message).mpr entry))

/-- A message besides the one that is taken stays in its queue. -/
theorem mem_queuedBehind {agentId agent : String} {number : Nat}
    {taken message : WorkflowMessage} {rest : List WorkflowMessage}
    (first : history.server.broker.held agentId number = taken :: rest)
    (other : ¬(agent = agentId ∧ message = taken)) (waits : history.Queued agent message) :
    message ∈ history.queuedBehind agentId number agent := by
  unfold queuedBehind
  split
  · rename_i own
    obtain ⟨rfl, found⟩ := own
    unfold Queued at waits
    rw [queueOf_of_lookup found, first] at waits ⊢
    rcases List.mem_cons.mp waits with same | behind
    · exact absurd ⟨rfl, same⟩ other
    · exact behind
  · exact waits

section PushTake

variable {connection number : Nat} {session : Session} {taken : WorkflowMessage}
  {broker : InProcessBroker}

theorem broker_pushTake
    (pushTaken : history.server.pushTaken connection = some (session, taken, broker))
    (outcome : SendOutcome) :
    (history.step (.pushTake connection outcome)).server.broker = broker := by
  unfold step BusServer.step BusServer.pushTake
  dsimp only
  rw [pushTaken]
  rfl

theorem sent_pushTake_iff
    (pushTaken : history.server.pushTaken connection = some (session, taken, broker))
    (outcome : SendOutcome) (agent : String) (message : WorkflowMessage) :
    (history.step (.pushTake connection outcome)).Sent agent message ↔
      history.Sent agent message ∨
        outcome = .sent ∧ agent = session.agentId ∧ message = taken := by
  unfold Sent step BusServer.sentBy
  cases outcome <;> simp [pushTaken]

theorem queued_pushTake_iff
    (pushTaken : history.server.pushTaken connection = some (session, taken, broker))
    (first : history.server.broker.takeFirst session.agentId number = some (taken, broker))
    (outcome : SendOutcome) (agent : String) (message : WorkflowMessage) :
    (history.step (.pushTake connection outcome)).Queued agent message ↔
      message ∈ history.queuedBehind session.agentId number agent := by
  unfold Queued queuedBehind
  rw [broker_pushTake pushTaken, queueOf_takeFirst first]

theorem pending_pushTake_iff
    (pushTaken : history.server.pushTaken connection = some (session, taken, broker))
    (first : history.server.broker.takeFirst session.agentId number = some (taken, broker))
    (outcome : SendOutcome) (agent : String) (message : WorkflowMessage) :
    (history.step (.pushTake connection outcome)).Pending agent message ↔
      history.Pending agent message ∧ (taken.needsAck = true →
        ackKey message.messageId agent ≠ ackKey taken.messageId session.agentId) := by
  unfold Pending
  rw [broker_pushTake pushTaken, pendingAcks_takeFirst first]
  cases taken.needsAck with
  | false => simp
  | true =>
      rw [if_pos rfl, OrderedDict.lookup_erase]
      split <;> simp [*]

theorem noneLost_pushTake_iff {outcome : SendOutcome} {rest : List WorkflowMessage}
    (kept : NoneLost history)
    (found : history.server.sessions.lookup connection = some session)
    (holds : session.push = .waiting number)
    (filled : history.server.broker.held session.agentId number = taken :: rest) :
    NoneLost (history.step (.pushTake connection outcome)) ↔
      (taken.needsAck = true → history.TakenSafely session.agentId number taken outcome) := by
  obtain ⟨broker, first⟩ := takeFirst_of_held filled
  have pushTaken := BusServer.pushTaken_of_waiting found holds first
  have silent : history.server.published (.pushTake connection outcome) = none := rfl
  have sent_iff := sent_pushTake_iff pushTaken outcome
  have queued_iff := queued_pushTake_iff pushTaken first outcome
  have pending_iff := pending_pushTake_iff pushTaken first outcome
  constructor
  · intro after needed agent message owed sameKey
    rcases after agent message ((owed_step_iff silent agent message).mpr owed) with
      wasSent | waits | entry
    · rcases (sent_iff agent message).mp wasSent with before | now
      · exact .inr (.inl before)
      · exact .inl now
    · exact .inr (.inr ((queued_iff agent message).mp waits))
    · exact absurd sameKey (((pending_iff agent message).mp entry).2 needed)
  · intro safely agent message owed
    have owed := (owed_step_iff silent agent message).mp owed
    by_cases dropped : taken.needsAck = true ∧
        ackKey message.messageId agent = ackKey taken.messageId session.agentId
    · rcases safely dropped.1 agent message owed dropped.2 with now | before | behind
      · exact .inl ((sent_iff agent message).mpr (.inr now))
      · exact .inl (sent_step before)
      · exact .inr (.inl ((queued_iff agent message).mpr behind))
    · rcases kept agent message owed with wasSent | waits | entry
      · exact .inl (sent_step wasSent)
      · refine .inr (.inl ((queued_iff agent message).mpr (mem_queuedBehind filled ?_ waits)))
        rintro ⟨rfl, rfl⟩
        exact dropped ⟨owed.2, rfl⟩
      · exact .inr (.inr ((pending_iff agent message).mpr
          ⟨entry, fun needed same => dropped ⟨needed, same⟩⟩))

end PushTake

/-! ## Envelopes -/

section Receive

variable {connection : Nat} {session : Session}

/-- A connection that has not subscribed yet. -/
theorem noneLost_receive_first (tidy : Tidy history.server.broker) (kept : NoneLost history)
    (missing : history.server.sessions.lookup connection = none) (envelope : BusEnvelope) :
    NoneLost (history.step (.receive connection envelope)) := by
  have silent : history.server.published (.receive connection envelope) = none := by
    unfold BusServer.published
    cases envelope <;> simp [missing]
  have unchanged (same : history.server.handleConnection connection envelope =
      history.server) : NoneLost (history.step (.receive connection envelope)) :=
    noneLost_sameBroker kept silent (congrArg BusServer.broker same)
  cases envelope with
  | subscribe agentId workflowId principal =>
      cases principal with
      | none => exact unchanged (by unfold BusServer.handleConnection; rw [missing])
      | some tenant =>
          have broker : (history.server.step (.receive connection
              (.subscribe agentId workflowId (some tenant)))).broker =
              history.server.broker.subscribe agentId workflowId tenant := by
            unfold BusServer.step BusServer.handleConnection
            dsimp only
            rw [missing]
          exact noneLost_subscribed tidy kept silent broker
  | _ => exact unchanged (by unfold BusServer.handleConnection; rw [missing])

theorem noneLost_receive_open_iff (tidy : Tidy history.server.broker) (kept : NoneLost history)
    (found : history.server.sessions.lookup connection = some session)
    (isOpen : session.isOpen = true) (envelope : BusEnvelope) :
    NoneLost (history.step (.receive connection envelope)) ↔
      history.Careful (.receive connection envelope) := by
  have handled : history.server.step (.receive connection envelope) =
      history.server.handleEnvelope session.agentId envelope :=
    BusServer.handleConnection_of_open found isOpen envelope
  cases envelope with
  | message message freshAck =>
      have published : history.server.published
          (.receive connection (.message message freshAck)) =
          some (history.server.attributed session.agentId message, freshAck) := by
        unfold BusServer.published
        dsimp only
        rw [found]
        exact if_pos isOpen
      refine iff_of_true (noneLost_published tidy kept published ?_) trivial
      rw [handled]
      rfl
  | subscribe agentId workflowId principal =>
      refine iff_of_true ?_ trivial
      by_cases empty : workflowId = ""
      · refine noneLost_sameBroker kept rfl ?_
        rw [handled]
        exact congrArg BusServer.broker (if_pos empty)
      · have broker : (history.server.step (.receive connection
            (.subscribe agentId workflowId principal))).broker =
            history.server.broker.subscribe session.agentId workflowId "default" := by
          rw [handled]
          exact congrArg BusServer.broker (if_neg empty)
        exact noneLost_subscribed tidy kept rfl broker
  | ack messageId =>
      by_cases empty : messageId = ""
      · refine iff_of_true (noneLost_sameBroker kept rfl ?_) ?_
        · rw [handled]
          exact congrArg BusServer.broker (if_pos empty)
        · exact fun _ _ _ named => absurd empty named
      · have broker : (history.server.step (.receive connection (.ack messageId))).broker =
            history.server.broker.ack session.agentId messageId := by
          rw [handled]
          exact congrArg BusServer.broker (if_neg empty)
        rw [noneLost_ack_iff kept rfl rfl broker]
        unfold Careful
        dsimp only
        constructor
        · intro each other there _ _
          rw [← Option.some.inj (found.symm.trans there)]
          exact each
        · intro careful
          exact careful session found isOpen empty
  | other =>
      refine iff_of_true (noneLost_sameBroker kept rfl ?_) trivial
      rw [handled]
      rfl

theorem noneLost_receive_closed (kept : NoneLost history)
    (found : history.server.sessions.lookup connection = some session)
    (closed : ¬session.isOpen = true) (envelope : BusEnvelope) :
    NoneLost (history.step (.receive connection envelope)) := by
  have unchanged : history.server.step (.receive connection envelope) = history.server :=
    BusServer.handleConnection_of_closed found closed envelope
  refine noneLost_sameBroker kept ?_ (congrArg _ unchanged)
  unfold BusServer.published
  cases envelope <;> simp [found, closed]

/-- Only an acknowledgement on an open connection has to be careful. -/
theorem careful_of_not_open
    (closed : ∀ session, history.server.sessions.lookup connection = some session →
      ¬session.isOpen = true) (envelope : BusEnvelope) :
    history.Careful (.receive connection envelope) := by
  unfold Careful
  cases envelope with
  | ack messageId => exact fun session found isOpen => absurd isOpen (closed session found)
  | _ => trivial

theorem noneLost_receive_iff (tidy : Tidy history.server.broker) (kept : NoneLost history)
    (connection : Nat) (envelope : BusEnvelope) :
    NoneLost (history.step (.receive connection envelope)) ↔
      history.Careful (.receive connection envelope) := by
  cases found : history.server.sessions.lookup connection with
  | none =>
      refine iff_of_true (noneLost_receive_first tidy kept found envelope)
        (careful_of_not_open ?_ envelope)
      exact fun session there => absurd (found.symm.trans there) (by simp)
  | some session =>
      by_cases isOpen : session.isOpen = true
      · exact noneLost_receive_open_iff tidy kept found isOpen envelope
      · refine iff_of_true (noneLost_receive_closed kept found isOpen envelope)
          (careful_of_not_open ?_ envelope)
        intro other there
        rw [← Option.some.inj (found.symm.trans there)]
        exact isOpen

end Receive

theorem noneLost_disconnect_iff (kept : NoneLost history) (connection : Nat) :
    NoneLost (history.step (.disconnect connection)) ↔
      history.Careful (.disconnect connection) := by
  unfold Careful
  dsimp only
  cases found : history.server.sessions.lookup connection with
  | none =>
      refine iff_of_true (noneLost_sameBroker kept rfl ?_) fun _ there => nomatch there
      unfold BusServer.step BusServer.disconnect
      dsimp only
      rw [found]
  | some session =>
      have disconnected (broker : InProcessBroker)
          (same : (if session.isOpen then
              if session.agentId = "" then history.server.broker
              else history.server.broker.unsubscribe session.agentId
            else history.server.broker) = broker) :
          (history.server.step (.disconnect connection)).broker = broker := by
        rw [← same]
        unfold BusServer.step BusServer.disconnect
        dsimp only
        rw [found]
        dsimp only
        split
        · split <;> rfl
        · rfl
      by_cases isOpen : session.isOpen = true
      · by_cases nameless : session.agentId = ""
        · refine iff_of_true (noneLost_sameBroker kept rfl ?_) ?_
          · exact disconnected _ (by rw [if_pos isOpen, if_pos nameless])
          · intro other there _ named
            rw [← Option.some.inj there] at named
            exact absurd nameless named
        · rw [noneLost_cleanup_iff kept rfl rfl
            (disconnected _ (by rw [if_pos isOpen, if_neg nameless]))]
          constructor
          · intro each other there _ _
            rw [← Option.some.inj there]
            exact each
          · intro careful
            exact careful session rfl isOpen nameless
      · refine iff_of_true (noneLost_sameBroker kept rfl ?_) ?_
        · exact disconnected _ (if_neg isOpen)
        · intro other there other_open
          rw [← Option.some.inj there] at other_open
          exact absurd other_open isOpen

theorem noneLost_pushTake_event_iff (kept : NoneLost history) (connection : Nat)
    (outcome : SendOutcome) :
    NoneLost (history.step (.pushTake connection outcome)) ↔
      history.Careful (.pushTake connection outcome) := by
  unfold Careful
  dsimp only
  by_cases takes : ∃ session number taken rest,
      history.server.sessions.lookup connection = some session ∧
        session.push = .waiting number ∧
        history.server.broker.held session.agentId number = taken :: rest
  · obtain ⟨session, number, taken, rest, found, holds, first⟩ := takes
    rw [noneLost_pushTake_iff kept found holds first]
    constructor
    · intro safely other number' taken' rest' there holds' first' needed
      obtain rfl := Option.some.inj (found.symm.trans there)
      obtain rfl := PushLoop.waiting.inj (holds.symm.trans holds')
      obtain ⟨rfl, -⟩ := List.cons.inj (first.symm.trans first')
      exact safely needed
    · intro careful needed
      exact careful session number taken rest found holds first needed
  · have nothing : history.server.pushTaken connection = none := by
      cases taken : history.server.pushTaken connection with
      | none => rfl
      | some all =>
          obtain ⟨session, message, broker⟩ := all
          obtain ⟨found, number, holds, first⟩ := BusServer.pushTaken_eq_some taken
          exact absurd ⟨session, number, message, _, found, holds, (held_takeFirst first).1⟩ takes
    refine iff_of_true (noneLost_sameBroker kept rfl ?_) ?_
    · unfold BusServer.step BusServer.pushTake
      dsimp only
      rw [nothing]
    · intro session number taken rest found holds first
      exact absurd ⟨session, number, taken, rest, found, holds, first⟩ takes

/-- A step of the server keeps every message exactly if it is careful. -/
theorem noneLost_step_iff (tidy : Tidy history.server.broker) (kept : NoneLost history)
    (event : ServerEvent) : NoneLost (history.step event) ↔ history.Careful event := by
  cases event with
  | receive connection envelope => exact noneLost_receive_iff tidy kept connection envelope
  | disconnect connection => exact noneLost_disconnect_iff kept connection
  | publish message freshAck => exact iff_of_true (noneLost_published tidy kept rfl rfl) trivial
  | pushWait connection =>
      exact iff_of_true (noneLost_sameBroker kept rfl (BusServer.onlyPush_wait connection).broker)
        trivial
  | pushTimeout connection =>
      exact iff_of_true
        (noneLost_sameBroker kept rfl (BusServer.onlyPush_timeout connection).broker) trivial
  | pushTake connection outcome => exact noneLost_pushTake_event_iff kept connection outcome
  | pushResume connection outcome =>
      exact iff_of_true
        (noneLost_sameBroker kept rfl (BusServer.onlyPush_resume connection outcome).broker) trivial

theorem tidy_server_step (history : PushRecord) (event : ServerEvent)
    (tidy : Tidy history.server.broker) : Tidy (history.step event).server.broker := by
  cases event with
  | receive connection envelope =>
      unfold step BusServer.step BusServer.handleConnection
      dsimp only
      split
      · split
        · exact tidy_subscribe tidy ..
        · exact tidy
      · split
        · unfold BusServer.handleEnvelope
          split
          · exact tidy_publish tidy ..
          · split
            · exact tidy
            · exact tidy_ack tidy ..
          · split
            · exact tidy
            · exact tidy_subscribe tidy ..
          · exact tidy
        · exact tidy
  | disconnect connection =>
      unfold step BusServer.step BusServer.disconnect
      dsimp only
      split
      · exact tidy
      · split
        · split
          · exact tidy
          · exact tidy_unsubscribe tidy _
        · exact tidy
  | publish message freshAck => exact tidy_publish tidy message freshAck
  | pushWait connection => exact (BusServer.onlyPush_wait connection).broker.symm ▸ tidy
  | pushTimeout connection => exact (BusServer.onlyPush_timeout connection).broker.symm ▸ tidy
  | pushTake connection outcome =>
      unfold step BusServer.step BusServer.pushTake
      dsimp only
      split
      · exact tidy
      · rename_i taken
        obtain ⟨-, number, -, first⟩ := BusServer.pushTaken_eq_some taken
        exact tidy_takeFirst tidy first
  | pushResume connection outcome =>
      exact (BusServer.onlyPush_resume connection outcome).broker.symm ▸ tidy

/-- Along a run from a new server, no message that needs an acknowledgement disappears
exactly if every step is careful. -/
theorem noneLost_throughout_iff (events : List ServerEvent) :
    Throughout step NoneLost {} events ↔ StepsMeet step Careful {} events := by
  have init : NoneLost {} := fun agent message owed => absurd owed.1 List.not_mem_nil
  exact throughout_iff_stepsMeet (fun history => Tidy history.server.broker) NoneLost
    tidy_server_step (fun _ event tidy kept => noneLost_step_iff tidy kept event)
    tidy_empty init events

/-- A task that is taken by a push loop whose socket has closed is in none of the three
places. -/
theorem closed_socket_loses_task :
    ¬Throughout step NoneLost {}
      [.receive 0 (.subscribe "a" "" (some "default")),
        .publish { messageId := "1", toAgentId := some "a", msgType := .task } "k",
        .pushWait 0, .pushTake 0 .raised] := by
  intro always
  have owed : (run step {} [.receive 0 (.subscribe "a" "" (some "default")),
        .publish { messageId := "1", toAgentId := some "a", msgType := .task } "k",
        .pushWait 0, .pushTake 0 .raised]).Owed "a"
      { messageId := "1", toAgentId := some "a", msgType := .task, ackId := "k" } :=
    ⟨List.mem_cons_self, rfl⟩
  rcases always 4 "a" _ owed with wasSent | waits | entry
  · cases wasSent
  · cases waits
  · exact entry rfl

end PushRecord

end YouMi.Bus
