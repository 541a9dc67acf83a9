import YouMi.Bus.Broker

/-!
# The websocket server of the bus

`BusServer`: the handler of each connection, the push loop it starts and the cleanup
when the connection ends.  Between two suspensions a handler runs alone, so an event
is what happens from one suspension to the next.  The tables of connections and of
heartbeats are left out: no routing reads them.
-/

namespace YouMi.Bus

open YouMi.Library

/-- Where the push loop of a connection is suspended. -/
inductive PushLoop where
  /-- Between two rounds. -/
  | ready
  /-- In `wait_for_message`, holding this queue object. -/
  | waiting (number : Nat)
  /-- In `websocket.send`, which has not sent the message. -/
  | sending (message : WorkflowMessage)
  | ended

/-- How a call of `websocket.send` goes on. -/
inductive SendOutcome where
  | sent
  /-- It raises: `ConnectionClosed`, or any other exception. -/
  | raised
  | suspended
  deriving DecidableEq

/-- What the handler of a connection holds once the first `subscribe` was accepted. -/
structure Session where
  agentId : String
  /-- The tenant of the authenticated principal. -/
  tenant : String
  isOpen : Bool := true
  push : PushLoop := .ready

/-- The envelopes, by their type.  A `subscribe` carries the tenant of the principal that
`validate` returns for its token, `none` for an invalid one. -/
inductive BusEnvelope where
  | subscribe (agentId workflowId : String) (principal : Option String)
  | message (message : WorkflowMessage) (freshAck : String)
  | ack (messageId : String)
  /-- A heartbeat, or a type without an effect. -/
  | other

structure BusServer where
  broker : InProcessBroker := {}
  agentTenants : OrderedDict String String := []
  /-- By connection; a connection that has ended keeps its number. -/
  sessions : OrderedDict Nat Session := []

inductive ServerEvent where
  | receive (connection : Nat) (envelope : BusEnvelope)
  /-- The connection closes, or its handler raises. -/
  | disconnect (connection : Nat)
  /-- An agent of the same process publishes. -/
  | publish (message : WorkflowMessage) (freshAck : String)
  /-- The push loop calls `wait_for_message`. -/
  | pushWait (connection : Nat)
  | pushTimeout (connection : Nat)
  /-- The call returns a message and the push loop sends it. -/
  | pushTake (connection : Nat) (outcome : SendOutcome)
  /-- A suspended `websocket.send` goes on. -/
  | pushResume (connection : Nat) (outcome : SendOutcome)

namespace BusServer

/-- `self._agent_tenants.get(agent_id, "default")`. -/
def tenantOf (server : BusServer) (agentId : String) : String :=
  (server.agentTenants.lookup agentId).getD "default"

def setPush (server : BusServer) (connection : Nat) (session : Session) (push : PushLoop) :
    BusServer :=
  { server with sessions := server.sessions.assign connection { session with push } }

/-- The message `_handle_envelope` publishes for an agent. -/
def attributed (server : BusServer) (agentId : String) (message : WorkflowMessage) :
    WorkflowMessage :=
  { message with tenant := server.tenantOf agentId }

def handleEnvelope (server : BusServer) (agentId : String) : BusEnvelope → BusServer
  | .message message freshAck =>
      { server with
        broker := server.broker.publish (server.attributed agentId message) freshAck }
  | .ack messageId =>
      if messageId = "" then server
      else { server with broker := server.broker.ack agentId messageId }
  | .subscribe _ workflowId _ =>
      if workflowId = "" then server
      else { server with broker := server.broker.subscribe agentId workflowId "default" }
  | .other => server

/-- One round of the loop of `_handle_connection`. -/
def handleConnection (server : BusServer) (connection : Nat) (envelope : BusEnvelope) :
    BusServer :=
  match server.sessions.lookup connection with
  | none =>
      match envelope with
      | .subscribe agentId workflowId (some tenant) =>
          { broker := server.broker.subscribe agentId workflowId tenant
            agentTenants := server.agentTenants.assign agentId tenant
            sessions := server.sessions.assign connection { agentId, tenant } }
      | _ => server
  | some session =>
      if session.isOpen then server.handleEnvelope session.agentId envelope else server

def cleanupAgent (server : BusServer) (agentId : String) : BusServer :=
  { server with
    agentTenants := server.agentTenants.erase agentId
    broker := server.broker.unsubscribe agentId }

/-- The session after its handler has ended; the push loop is cancelled as well. -/
def closed (session : Session) : Session :=
  if session.agentId = "" then { session with isOpen := false }
  else { session with isOpen := false, push := .ended }

/-- The `finally` block of `_handle_connection`; an empty agent id is taken for none. -/
def disconnect (server : BusServer) (connection : Nat) : BusServer :=
  match server.sessions.lookup connection with
  | none => server
  | some session =>
      if session.isOpen then
        let server := { server with
          sessions := server.sessions.assign connection (closed session) }
        if session.agentId = "" then server else server.cleanupAgent session.agentId
      else server

/-- The push loop after `websocket.send`: an exception ends it. -/
def afterSend (message : WorkflowMessage) : SendOutcome → PushLoop
  | .sent => .ready
  | .raised => .ended
  | .suspended => .sending message

def pushWait (server : BusServer) (connection : Nat) : BusServer :=
  match server.sessions.lookup connection with
  | none => server
  | some session =>
      match session.push with
      | .ready =>
          match server.broker.queues.lookup session.agentId with
          | none => server
          | some number => server.setPush connection session (.waiting number)
      | _ => server

def pushTimeout (server : BusServer) (connection : Nat) : BusServer :=
  match server.sessions.lookup connection with
  | none => server
  | some session =>
      match session.push with
      | .waiting _ => server.setPush connection session .ready
      | _ => server

/-- What the push loop of a connection takes when it is woken, and what that leaves of the
broker. -/
def pushTaken (server : BusServer) (connection : Nat) :
    Option (Session × WorkflowMessage × InProcessBroker) :=
  match server.sessions.lookup connection with
  | none => none
  | some session =>
      match session.push with
      | .waiting number =>
          (server.broker.takeFirst session.agentId number).map fun taken => (session, taken)
      | _ => none

def pushTake (server : BusServer) (connection : Nat) (outcome : SendOutcome) : BusServer :=
  match server.pushTaken connection with
  | none => server
  | some (session, message, broker) =>
      let server := { server with broker }
      server.setPush connection session (afterSend message outcome)

def pushResume (server : BusServer) (connection : Nat) (outcome : SendOutcome) : BusServer :=
  match server.sessions.lookup connection with
  | none => server
  | some session =>
      match session.push with
      | .sending message => server.setPush connection session (afterSend message outcome)
      | _ => server

def step (server : BusServer) : ServerEvent → BusServer
  | .receive connection envelope => server.handleConnection connection envelope
  | .disconnect connection => server.disconnect connection
  | .publish message freshAck =>
      { server with broker := server.broker.publish message freshAck }
  | .pushWait connection => server.pushWait connection
  | .pushTimeout connection => server.pushTimeout connection
  | .pushTake connection outcome => server.pushTake connection outcome
  | .pushResume connection outcome => server.pushResume connection outcome

variable {server : BusServer}

/-- A push loop that takes a message holds the queue object the message came from. -/
theorem pushTaken_eq_some {connection : Nat} {session : Session} {message : WorkflowMessage}
    {broker : InProcessBroker}
    (taken : server.pushTaken connection = some (session, message, broker)) :
    server.sessions.lookup connection = some session ∧
      ∃ number, session.push = .waiting number ∧
        server.broker.takeFirst session.agentId number = some (message, broker) := by
  unfold pushTaken at taken
  split at taken
  · cases taken
  · rename_i found
    split at taken
    · rename_i number holds
      obtain ⟨first, was_taken, same⟩ := Option.map_eq_some_iff.mp taken
      obtain ⟨rfl, rfl⟩ := Prod.mk.inj same
      exact ⟨found, number, holds, was_taken⟩
    · cases taken

theorem pushTaken_of_waiting {connection number : Nat} {session : Session}
    {message : WorkflowMessage} {broker : InProcessBroker}
    (found : server.sessions.lookup connection = some session)
    (holds : session.push = .waiting number)
    (taken : server.broker.takeFirst session.agentId number = some (message, broker)) :
    server.pushTaken connection = some (session, message, broker) := by
  unfold pushTaken
  rw [found]
  dsimp only
  rw [holds]
  dsimp only
  rw [taken]
  rfl

/-- At most the push loop of the connection goes on to another place. -/
def OnlyPush (server : BusServer) (connection : Nat) (after : BusServer) : Prop :=
  after = server ∨ ∃ session push, server.sessions.lookup connection = some session ∧
    after = server.setPush connection session push

theorem OnlyPush.broker {connection : Nat} {after : BusServer}
    (only : OnlyPush server connection after) : after.broker = server.broker := by
  rcases only with rfl | ⟨session, push, -, rfl⟩ <;> rfl

theorem onlyPush_wait (connection : Nat) :
    OnlyPush server connection (server.pushWait connection) := by
  unfold pushWait
  split
  · exact .inl rfl
  · rename_i session found
    split
    · split
      · exact .inl rfl
      · exact .inr ⟨session, _, found, rfl⟩
    · exact .inl rfl

theorem onlyPush_timeout (connection : Nat) :
    OnlyPush server connection (server.pushTimeout connection) := by
  unfold pushTimeout
  split
  · exact .inl rfl
  · rename_i session found
    split
    · exact .inr ⟨session, _, found, rfl⟩
    · exact .inl rfl

theorem onlyPush_resume (connection : Nat) (outcome : SendOutcome) :
    OnlyPush server connection (server.pushResume connection outcome) := by
  unfold pushResume
  split
  · exact .inl rfl
  · rename_i session found
    split
    · exact .inr ⟨session, _, found, rfl⟩
    · exact .inl rfl

theorem handleConnection_of_open {connection : Nat} {session : Session}
    (found : server.sessions.lookup connection = some session) (isOpen : session.isOpen = true)
    (envelope : BusEnvelope) :
    server.handleConnection connection envelope =
      server.handleEnvelope session.agentId envelope := by
  unfold handleConnection
  rw [found]
  exact if_pos isOpen

/-- A connection that has ended is not read any more. -/
theorem handleConnection_of_closed {connection : Nat} {session : Session}
    (found : server.sessions.lookup connection = some session) (closed : ¬session.isOpen = true)
    (envelope : BusEnvelope) : server.handleConnection connection envelope = server := by
  unfold handleConnection
  rw [found]
  exact if_neg closed

end BusServer

end YouMi.Bus
