import YouMi.Bus.PushLoop

/-!
# Clients of the bus behind sockets

`BusClient` with its connections to `BusServer`.  A socket keeps what is written in
order, each way, and is lost at any time, of which each end learns when it does.  An
attempt to connect that fails after its `subscribe` was written leaves its socket
open.  An envelope carries its message whole.
-/

namespace YouMi.Bus

open YouMi.Library InProcessBroker

/-- What the server writes on a socket. -/
inductive ServerFrame where
  | subscribed
  /-- The token is invalid. -/
  | unauthorized
  | error
  | heartbeatAck
  | message (message : WorkflowMessage)

/-- A socket, with what was written and not read each way. -/
structure Socket where
  /-- Whose client has opened it. -/
  agentId : String := ""
  up : List BusEnvelope := []
  down : List ServerFrame := []
  /-- The server has refused the subscription and reads no more. -/
  refused : Bool := false

/-- What a client does with its sockets. -/
inductive ClientPhase where
  /-- Nothing, or it waits for its next attempt to connect. -/
  | apart
  /-- It waits for the answer to its `subscribe`, in `_reconnect` or in `connect`. -/
  | subscribing (connection : Nat) (again : Bool)
  /-- In `_recv_loop`. -/
  | receiving (connection : Nat)

structure BusClient where
  agentId : String
  workflowId : String := ""
  /-- The tenant that its token stands for; `none` for an invalid one. -/
  principal : Option String := none
  ws : Option Nat := none
  connected : Bool := false
  phase : ClientPhase := .apart
  recvQueue : List WorkflowMessage := []

structure Network where
  server : BusServer := {}
  sockets : Nat → Socket := fun _ => {}
  /-- Sockets are numbered as they are opened. -/
  opened : Nat := 0
  clients : Nat → BusClient

inductive NetworkEvent where
  /-- A socket is opened, by `connect` or by `_reconnect`, and `subscribe` is written. -/
  | dial (client : Nat) (again : Bool)
  /-- An attempt to connect raises or times out. -/
  | attemptFails (client : Nat)
  /-- `_recv_loop` finds the socket closed. -/
  | connectionClosed (client : Nat)
  | disconnect (client : Nat)
  /-- The client reads; where it acknowledges what it has read, that may raise. -/
  | read (client : Nat) (acknowledges : Bool)
  | publish (client : Nat) (message : WorkflowMessage) (freshAck : String)
  | subscribe (client : Nat) (workflowId : String)
  | ack (client : Nat) (messageId : String)
  | heartbeat (client : Nat)
  /-- `wait_for_message` and `pending_messages` of the client. -/
  | waitForMessage (client : Nat)
  | pendingMessages (client : Nat)
  /-- The handler of a connection reads an envelope. -/
  | handle (connection : Nat)
  /-- Whatever else happens at the server. -/
  | server (event : ServerEvent)

namespace BusServer

/-- What a handler writes in answer to an envelope. -/
def replies (server : BusServer) (connection : Nat) (envelope : BusEnvelope) : List ServerFrame :=
  match server.sessions.lookup connection with
  | none =>
      match envelope with
      | .subscribe _ _ (some _) => [.subscribed]
      | .subscribe _ _ none => [.unauthorized]
      | _ => [.error]
  | some session =>
      if session.isOpen then
        match envelope with
        | .subscribe _ workflowId _ => if workflowId = "" then [] else [.subscribed]
        | .other => [.heartbeatAck]
        | _ => []
      else []

/-- The handler returns after an invalid token. -/
def refuses (server : BusServer) (connection : Nat) : BusEnvelope → Bool
  | .subscribe _ _ none => (server.sessions.lookup connection).isNone
  | _ => false

/-- What a push loop writes, with its connection. -/
def pushes (server : BusServer) : ServerEvent → Option (Nat × WorkflowMessage)
  | .pushTake connection .sent =>
      (server.pushTaken connection).map fun taken => (connection, taken.2.1)
  | .pushResume connection .sent =>
      match server.sessions.lookup connection with
      | none => none
      | some session =>
          match session.push with
          | .sending message => some (connection, message)
          | _ => none
  | _ => none

end BusServer

namespace Network

def setClient (net : Network) (client : Nat) (state : BusClient) : Network :=
  { net with clients := fun c => if c = client then state else net.clients c }

def setSocket (net : Network) (connection : Nat) (socket : Socket) : Network :=
  { net with sockets := fun k => if k = connection then socket else net.sockets k }

def writeUp (net : Network) (connection : Nat) (envelope : BusEnvelope) : Network :=
  net.setSocket connection
    { net.sockets connection with up := (net.sockets connection).up ++ [envelope] }

def writeDown (net : Network) (connection : Nat) (frames : List ServerFrame) : Network :=
  net.setSocket connection
    { net.sockets connection with down := (net.sockets connection).down ++ frames }

/-- The client writes, if it takes itself for connected. -/
def send (net : Network) (client : Nat) (envelope : BusEnvelope) : Network :=
  match (net.clients client).ws with
  | none => net
  | some connection =>
      if (net.clients client).connected then net.writeUp connection envelope else net

def dial (net : Network) (client : Nat) (again : Bool) : Network :=
  let state := net.clients client
  let connection := net.opened
  match state.phase with
  | .apart =>
      ({ net with opened := connection + 1 }.setSocket connection
        { agentId := state.agentId
          up := [.subscribe state.agentId state.workflowId state.principal] }).setClient client
        { state with
          ws := some connection
          connected := true
          phase := .subscribing connection again }
  | _ => net

def attemptFails (net : Network) (client : Nat) : Network :=
  let state := net.clients client
  match state.phase with
  | .subscribing _ _ => net.setClient client { state with phase := .apart }
  | _ => net

def connectionClosed (net : Network) (client : Nat) : Network :=
  let state := net.clients client
  match state.phase with
  | .receiving _ => net.setClient client { state with connected := false, phase := .apart }
  | _ => net

def disconnect (net : Network) (client : Nat) : Network :=
  net.setClient client
    { net.clients client with connected := false, ws := none, phase := .apart }

/-- The answer to a `subscribe`.  `connect` goes on whatever it is, unless it is an error. -/
def answered (state : BusClient) (connection : Nat) (again : Bool) : ServerFrame → BusClient
  | .subscribed => { state with phase := .receiving connection }
  | .unauthorized | .error =>
      if again then { state with connected := false, phase := .apart }
      else { state with connected := false, ws := none, phase := .apart }
  | _ =>
      if again then { state with phase := .apart }
      else { state with phase := .receiving connection }

/-- A message goes to the queue of the client, and is acknowledged. -/
def receiveFrame (net : Network) (client : Nat) (acknowledges : Bool) : ServerFrame → Network
  | .message message =>
      let state := { net.clients client with
        recvQueue := (net.clients client).recvQueue ++ [message] }
      let net := net.setClient client state
      if message.needsAck && state.connected then
        if acknowledges then net.send client (.ack message.messageId)
        else net.setClient client { state with connected := false, phase := .apart }
      else net
  | _ => net

def read (net : Network) (client : Nat) (acknowledges : Bool) : Network :=
  match (net.clients client).phase with
  | .apart => net
  | .subscribing connection again =>
      match (net.sockets connection).down with
      | [] => net
      | frame :: rest =>
          (net.setSocket connection { net.sockets connection with down := rest }).setClient client
            (answered (net.clients client) connection again frame)
  | .receiving connection =>
      match (net.sockets connection).down with
      | [] => net
      | frame :: rest =>
          (net.setSocket connection { net.sockets connection with down := rest }).receiveFrame
            client acknowledges frame

/-- The handler of a connection reads what was written first. -/
def handle (net : Network) (connection : Nat) : Network :=
  match (net.sockets connection).up with
  | [] => net
  | envelope :: rest =>
      if (net.sockets connection).refused then net
      else
        { net with server := net.server.handleConnection connection envelope }.setSocket connection
          { net.sockets connection with
            up := rest
            down := (net.sockets connection).down ++ net.server.replies connection envelope
            refused := net.server.refuses connection envelope }

def serverStep (net : Network) (event : ServerEvent) : Network :=
  match event with
  | .receive _ _ => net
  | _ =>
      let after := { net with server := net.server.step event }
      match net.server.pushes event with
      | none => after
      | some (connection, message) => after.writeDown connection [.message message]

def step (net : Network) : NetworkEvent → Network
  | .dial client again => net.dial client again
  | .attemptFails client => net.attemptFails client
  | .connectionClosed client => net.connectionClosed client
  | .disconnect client => net.disconnect client
  | .read client acknowledges => net.read client acknowledges
  | .publish client message freshAck => net.send client (.message message freshAck)
  | .subscribe client workflowId =>
      net.send client (.subscribe (net.clients client).agentId workflowId
        (net.clients client).principal)
  | .ack client messageId => net.send client (.ack messageId)
  | .heartbeat client => net.send client .other
  | .waitForMessage client =>
      net.setClient client { net.clients client with
        recvQueue := (net.clients client).recvQueue.tail }
  | .pendingMessages client =>
      net.setClient client { net.clients client with recvQueue := [] }
  | .handle connection => net.handle connection
  | .server event => net.serverStep event

/-! ## What is seen of a run -/

/-- What an event returns to the owner of a client. -/
def returned (client : Nat) (net : Network) : NetworkEvent → List WorkflowMessage
  | .waitForMessage c => if c = client then (net.clients client).recvQueue.head?.toList else []
  | .pendingMessages c => if c = client then (net.clients client).recvQueue else []
  | _ => []

/-- What an event puts into the queue of a client. -/
def received (client : Nat) (net : Network) : NetworkEvent → List WorkflowMessage
  | .read c _ =>
      if c = client then
        match (net.clients client).phase with
        | .receiving connection =>
            match (net.sockets connection).down with
            | .message message :: _ => [message]
            | _ => []
        | _ => []
      else []
  | _ => []

/-- What an event puts into the queue of an agent at the server. -/
def put (agent : String) (net : Network) (event : NetworkEvent) : List WorkflowMessage :=
  let putBy (event : ServerEvent) : List WorkflowMessage :=
    ((net.server.putBy event).filter fun placed => placed.1 = agent).map Prod.snd
  match event with
  | .handle connection =>
      match (net.sockets connection).up with
      | [] => []
      | envelope :: _ =>
          if (net.sockets connection).refused then [] else putBy (.receive connection envelope)
  | .server (.receive _ _) => []
  | .server event => putBy event
  | _ => []

end Network

end YouMi.Bus
