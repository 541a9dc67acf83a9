import YouMi.Bus.Sockets

/-!
# In order and at most once

Whatever is lost on the way, and however often its clients connect again, the owner of a
client is returned some of the messages that were put into the queue of its agent, in
their order and each once.
-/

namespace YouMi.Bus

open YouMi.Library InProcessBroker

namespace Network

variable {net after : Network} {agent : String} {on : Option Nat}
  {got got' put' : List WorkflowMessage}

/-! ## New sockets -/

theorem sound_dial (sound : net.Sound) (client : Nat) (again : Bool) :
    (net.dial client again).Sound := by
  unfold dial
  dsimp only
  split
  · have kept : ∀ connection, connection < net.opened →
        (if connection = net.opened then
          ({ agentId := (net.clients client).agentId
             up := [.subscribe (net.clients client).agentId (net.clients client).workflowId
              (net.clients client).principal] } : Socket)
          else net.sockets connection) = net.sockets connection :=
      fun connection small => if_neg (Nat.ne_of_lt small)
    refine ⟨sound.paced, fun other connection used => ?_,
      fun connection agentId workflowId principal here => ?_, fun connection session found => ?_,
      fun connection large => ?_⟩
    · unfold setClient setSocket at used ⊢
      dsimp only at used ⊢
      by_cases same : other = client
      · rw [if_pos same] at used ⊢
        have new : net.opened = connection := by
          rcases used with now | now
          · exact Option.some.inj now
          · exact Option.some.inj now
        rw [if_pos new.symm]
        exact ⟨by omega, rfl⟩
      · rw [if_neg same] at used ⊢
        obtain ⟨small, owner⟩ := sound.used other connection used
        rw [kept connection small]
        exact ⟨by omega, owner⟩
    · unfold setClient setSocket at here ⊢
      dsimp only at here ⊢
      by_cases new : connection = net.opened
      · rw [if_pos new] at here ⊢
        cases List.mem_singleton.mp here
        rfl
      · rw [if_neg new] at here ⊢
        exact sound.subscribes connection agentId workflowId principal here
    · obtain ⟨small, owner⟩ := sound.sessions connection session found
      refine ⟨Nat.lt_succ_of_lt small, owner.trans ?_⟩
      exact congrArg Socket.agentId (kept connection small).symm
    · have differ : connection ≠ net.opened := by
        have more : net.opened + 1 ≤ connection := large
        omega
      have more : net.opened + 1 ≤ connection := large
      unfold setClient setSocket
      dsimp only
      rw [if_neg differ]
      exact sound.unopened connection (by omega)
  · exact sound

theorem ordered_dial (sound : net.Sound) {client : Nat}
    (ordered : net.Ordered agent (net.clients client).phase.connection got put') (dialler : Nat)
    (again : Bool) :
    (net.dial dialler again).Ordered agent
      ((net.dial dialler again).clients client).phase.connection got put' := by
  unfold dial
  dsimp only
  split
  · have fresh : net.server.sessions.lookup net.opened = none := by
      cases found : net.server.sessions.lookup net.opened with
      | none => rfl
      | some session => exact absurd (sound.sessions _ session found).1 (Nat.lt_irrefl _)
    by_cases same : client = dialler
    · refine ordered.of_client rfl (fun connection reads => .inr ?_) ?_
      · unfold setClient at reads
        dsimp only at reads
        rw [if_pos same] at reads
        cases reads
        exact fresh
      · refine List.Sublist.append_left ?_ _
        unfold setClient
        dsimp only
        rw [if_pos same]
        dsimp only [ClientPhase.connection, way, setSocket, sendingOn]
        rw [if_pos rfl, fresh]
        exact List.nil_sublist _
    · unfold setClient
      dsimp only
      rw [if_neg same]
      refine ordered.of_client rfl (fun _ reads => .inl reads) (List.Sublist.append_left ?_ _)
      refine way_sublist rfl fun connection reads => ?_
      have differ := Nat.ne_of_lt (sound.used client connection (.inl reads)).1
      dsimp only [setSocket]
      rw [if_neg differ]
  · exact ordered

theorem sound_handle (sound : net.Sound) (connection : Nat) : (net.handle connection).Sound := by
  unfold handle
  split
  · exact sound
  · rename_i envelope rest written
    split
    · exact sound
    · have small : connection < net.opened := by
        by_contra large
        rw [sound.unopened connection (Nat.le_of_not_lt large)] at written
        cases written
      have owner : ∀ other, (({ net with
            server := net.server.handleConnection connection envelope }.setSocket connection
          { net.sockets connection with
            up := rest
            down := (net.sockets connection).down ++ net.server.replies connection envelope
            refused := net.server.refuses connection envelope }).sockets other).agentId =
          (net.sockets other).agentId := by
        intro other
        unfold setSocket
        dsimp only
        split
        · rename_i same
          rw [same]
        · rfl
      have fewer : ∀ other, ∀ left ∈ (({ net with
            server := net.server.handleConnection connection envelope }.setSocket connection
          { net.sockets connection with
            up := rest
            down := (net.sockets connection).down ++ net.server.replies connection envelope
            refused := net.server.refuses connection envelope }).sockets other).up,
          left ∈ (net.sockets other).up := by
        intro other left here
        unfold setSocket at here
        dsimp only at here
        split at here
        · rename_i same
          rw [same, written]
          exact List.mem_cons_of_mem envelope here
        · exact here
      refine ⟨BusServer.paced_step sound.paced (.receive connection envelope),
        fun client other used => ?_, fun other agentId workflowId principal here => ?_,
        fun other session found => ?_, fun other large => ?_⟩
      · rw [owner]
        exact sound.used client other used
      · rw [owner]
        exact sound.subscribes other agentId workflowId principal (fewer other _ here)
      · rw [owner]
        have continues : net.server.Continues (.receive connection envelope) other session :=
          BusServer.continues_step found
        rcases continues with ⟨-, -, workflowId, tenant, same⟩ | ⟨before, was, goes⟩
        · cases same
          refine ⟨small, sound.subscribes connection session.agentId workflowId (some tenant) ?_⟩
          rw [written]
          exact List.mem_cons_self
        · rw [goes.agentId]
          exact sound.sessions other before was
      · refine List.eq_nil_iff_forall_not_mem.mpr fun left here => ?_
        have there := fewer other left here
        rw [sound.unopened other large] at there
        cases there

theorem filterMap_replies (server : BusServer) (connection : Nat) (envelope : BusEnvelope) :
    (server.replies connection envelope).filterMap ServerFrame.carried = [] := by
  unfold BusServer.replies
  split
  · split <;> rfl
  · split
    · split
      · split <;> rfl
      · rfl
      · rfl
    · rfl

theorem ordered_handle (sound : net.Sound)
    (ordered : net.Ordered agent on got put')
    (own : ∀ connection ∈ on, (net.sockets connection).agentId = agent) (connection : Nat) :
    (net.handle connection).Ordered agent on got (put' ++ net.put agent (.handle connection)) := by
  unfold handle Network.put
  dsimp only
  cases written : (net.sockets connection).up with
  | nil =>
      rw [List.append_nil]
      exact ordered
  | cons envelope rest =>
      dsimp only
      split
      · rw [List.append_nil]
        exact ordered
      · have quiet : BusServer.Quiet (.receive connection envelope) := trivial
        refine ordered.of_quiet sound.paced quiet rfl (fun other _ => ?_)
          fun other reads session found =>
            (sound.sessions other session found).2.trans (own other reads)
        unfold setSocket
        dsimp only
        split
        · rename_i same
          rw [same]
          unfold Socket.coming
          dsimp only
          rw [List.filterMap_append, filterMap_replies, List.append_nil]
        · exact List.Sublist.refl _

/-- The server goes on by itself. -/
theorem ordered_serverStep (sound : net.Sound)
    (ordered : net.Ordered agent on got put')
    (own : ∀ connection ∈ on, (net.sockets connection).agentId = agent) (event : ServerEvent) :
    (net.serverStep event).Ordered agent on got (put' ++ net.put agent (.server event)) := by
  have agents : ∀ connection ∈ on, ∀ session,
      net.server.sessions.lookup connection = some session → session.agentId = agent :=
    fun connection reads session found =>
      (sound.sessions connection session found).2.trans (own connection reads)
  have unread (quiet : BusServer.Quiet event) :
      ({ net with server := net.server.step event } : Network).Ordered agent on got
        (put' ++ net.server.addedBy event agent) :=
    ordered.of_quiet sound.paced quiet rfl (fun _ _ => List.Sublist.refl _) agents
  cases event with
  | receive connection envelope =>
      change net.Ordered agent on got (put' ++ [])
      rw [List.append_nil]
      exact ordered
  | pushTake connection outcome =>
      change (net.serverStep _).Ordered agent on got (put' ++ [])
      rw [List.append_nil]
      exact ordered_pushTake sound ordered own connection outcome
  | pushResume connection outcome =>
      change (net.serverStep _).Ordered agent on got (put' ++ [])
      rw [List.append_nil]
      exact ordered_pushResume sound ordered connection outcome
  | _ => exact unread trivial

theorem serverStep_of_pushes {event : ServerEvent}
    (unread : ∀ connection envelope, event ≠ .receive connection envelope) :
    net.serverStep event =
      match net.server.pushes event with
      | none => { net with server := net.server.step event }
      | some (connection, message) =>
          { net with server := net.server.step event }.writeDown connection [.message message] := by
  unfold serverStep
  cases event with
  | receive connection envelope => exact absurd rfl (unread connection envelope)
  | _ => rfl

theorem sound_serverStep (sound : net.Sound) (event : ServerEvent) : (net.serverStep event).Sound := by
  have keeps {after : Network} (server : after.server = net.server.step event)
      (unread : ∀ connection envelope, event ≠ .receive connection envelope)
      (clients : after.clients = net.clients) (opened : after.opened = net.opened)
      (sockets : ∀ connection, (after.sockets connection).agentId =
        (net.sockets connection).agentId ∧
          (after.sockets connection).up = (net.sockets connection).up) : after.Sound := by
    refine ⟨by rw [server]; exact BusServer.paced_step sound.paced event,
      fun client connection used => ?_, fun connection agentId workflowId principal here => ?_,
      fun connection session found => ?_, fun connection large => ?_⟩
    · rw [clients] at used ⊢
      rw [opened, (sockets connection).1]
      exact sound.used client connection used
    · rw [(sockets connection).2] at here
      rw [(sockets connection).1]
      exact sound.subscribes connection agentId workflowId principal here
    · rw [server] at found
      rw [opened, (sockets connection).1]
      rcases BusServer.continues_step found with ⟨-, -, workflowId, tenant, same⟩ |
        ⟨before, was, goes⟩
      · exact absurd same (unread _ _)
      · rw [goes.agentId]
        exact sound.sessions connection before was
    · rw [opened] at large
      rw [(sockets connection).2]
      exact sound.unopened connection large
  by_cases unread : ∀ connection envelope, event ≠ .receive connection envelope
  · rw [serverStep_of_pushes unread]
    split
    · exact keeps rfl unread rfl rfl fun _ => ⟨rfl, rfl⟩
    · refine keeps rfl unread rfl rfl fun other => ?_
      unfold writeDown setSocket
      dsimp only
      split
      · rename_i same
        rw [same]
        exact ⟨rfl, rfl⟩
      · exact ⟨rfl, rfl⟩
  · cases event with
    | receive connection envelope => exact sound
    | _ => exact absurd (fun _ _ => nofun) unread

/-! ## Runs -/

theorem steers_attemptFails (client : Nat) : Steers net (net.attemptFails client) := by
  unfold attemptFails
  dsimp only
  split
  · exact steers_state rfl (.inl rfl) (.inr rfl)
  · exact Steers.refl net

theorem steers_connectionClosed (client : Nat) : Steers net (net.connectionClosed client) := by
  unfold connectionClosed
  dsimp only
  split
  · exact steers_state rfl (.inl rfl) (.inr rfl)
  · exact Steers.refl net

/-- The event is one of a client with the socket it has. -/
def OfClient : NetworkEvent → Prop
  | .dial _ _ | .handle _ | .server _ => False
  | _ => True

theorem steers_step (sound : net.Sound) {event : NetworkEvent} (ofClient : OfClient event) :
    Steers net (net.step event) := by
  cases event with
  | dial client again => exact ofClient.elim
  | attemptFails client => exact steers_attemptFails client
  | connectionClosed client => exact steers_connectionClosed client
  | disconnect client =>
      unfold Network.step disconnect
      exact steers_state rfl (.inr rfl) (.inr rfl)
  | read client acknowledges => exact steers_read sound client acknowledges
  | publish client message freshAck =>
      refine steers_send sound ?_
      rintro _ _ _ ⟨⟩
  | subscribe client workflowId =>
      refine steers_send sound ?_
      rintro _ _ _ ⟨⟩
      rfl
  | ack client messageId =>
      refine steers_send sound ?_
      rintro _ _ _ ⟨⟩
  | heartbeat client =>
      refine steers_send sound ?_
      rintro _ _ _ ⟨⟩
  | waitForMessage client =>
      unfold Network.step
      exact steers_state rfl (.inl rfl) (.inl rfl)
  | pendingMessages client =>
      unfold Network.step
      exact steers_state rfl (.inl rfl) (.inl rfl)
  | handle connection => exact ofClient.elim
  | server event => exact ofClient.elim

theorem sound_step (sound : net.Sound) (event : NetworkEvent) : (net.step event).Sound := by
  cases event with
  | dial client again => exact sound_dial sound client again
  | handle connection => exact sound_handle sound connection
  | server event => exact sound_serverStep sound event
  | _ => exact Steers.sound (steers_step sound (by exact trivial)) sound

theorem clients_handle (net : Network) (connection : Nat) :
    (net.handle connection).clients = net.clients := by
  unfold handle
  split
  · rfl
  · split
    · rfl
    · rfl

theorem clients_serverStep (net : Network) (event : ServerEvent) :
    (net.serverStep event).clients = net.clients := by
  unfold serverStep
  split
  · rfl
  · dsimp only
    split
    · rfl
    · rfl

theorem agentId_step (sound : net.Sound) (event : NetworkEvent) (client : Nat) :
    ((net.step event).clients client).agentId = (net.clients client).agentId := by
  cases event with
  | dial dialler again =>
      unfold Network.step dial setClient
      dsimp only
      split
      · dsimp only
        split
        · rename_i same
          rw [same]
        · rfl
      · rfl
  | handle connection =>
      exact congrArg (fun clients => (clients client).agentId) (clients_handle net connection)
  | server event =>
      exact congrArg (fun clients => (clients client).agentId) (clients_serverStep net event)
  | _ => exact Steers.agentId (steers_step sound (by exact trivial)) client

/-- A step keeps what a client has got, and what is still to come, in order. -/
theorem ordered_step (sound : net.Sound) {client : Nat}
    (ordered : net.Ordered (net.clients client).agentId (net.clients client).phase.connection got
      put') (event : NetworkEvent) :
    (net.step event).Ordered (net.clients client).agentId
      ((net.step event).clients client).phase.connection (got ++ net.received client event)
      (put' ++ net.put (net.clients client).agentId event) := by
  have own : ∀ connection ∈ (net.clients client).phase.connection,
      (net.sockets connection).agentId = (net.clients client).agentId :=
    fun connection reads => (sound.used client connection (.inl reads)).2
  have alone {event : NetworkEvent} (ofClient : OfClient event) :
      (net.step event).Ordered (net.clients client).agentId
        ((net.step event).clients client).phase.connection (got ++ []) (put' ++ []) := by
    rw [List.append_nil, List.append_nil]
    exact (steers_step sound ofClient).ordered ordered
  cases event with
  | dial dialler again =>
      change (net.dial dialler again).Ordered _ _ (got ++ []) (put' ++ [])
      rw [List.append_nil, List.append_nil]
      exact ordered_dial sound ordered dialler again
  | read reader acknowledges =>
      change (net.read reader acknowledges).Ordered _ _ _ (put' ++ [])
      rw [List.append_nil]
      exact ordered_read sound ordered reader acknowledges
  | handle connection =>
      change (net.handle connection).Ordered _ ((net.handle connection).clients client).phase.connection
        (got ++ []) _
      rw [List.append_nil, clients_handle]
      exact ordered_handle sound ordered own connection
  | server event =>
      change (net.serverStep event).Ordered _ ((net.serverStep event).clients client).phase.connection
        (got ++ []) _
      rw [List.append_nil, clients_serverStep]
      exact ordered_serverStep sound ordered own event
  | _ => exact alone trivial

theorem ordered_run (sound : net.Sound) {client : Nat}
    (ordered : net.Ordered (net.clients client).agentId (net.clients client).phase.connection got
      put') (events : List NetworkEvent) :
    (got ++ along step (received client) net events).Sublist
      (put' ++ along step (put (net.clients client).agentId) net events) := by
  induction events generalizing net got put' with
  | nil =>
      obtain ⟨first, -, -, -, kept⟩ := ordered
      rw [along, along, List.append_nil, List.append_nil]
      rw [List.append_assoc] at kept
      exact (List.sublist_append_left got _).trans kept
  | cons event events ih =>
      rw [along, along, ← List.append_assoc, ← List.append_assoc]
      have next := ordered_step sound ordered event
      rw [← agentId_step sound event client] at next ⊢
      exact ih (sound_step sound event) next

/-! ## The queue of a client -/

theorem recvQueue_setClient {dialler : Nat} {state : BusClient}
    (same : state.recvQueue = (net.clients dialler).recvQueue) (client : Nat) :
    ((net.setClient dialler state).clients client).recvQueue =
      (net.clients client).recvQueue := by
  unfold setClient
  dsimp only
  split
  · rename_i is
    rw [is, same]
  · rfl

theorem clients_send (net : Network) (client : Nat) (envelope : BusEnvelope) :
    (net.send client envelope).clients = net.clients := by
  unfold send
  split
  · rfl
  · split
    · rfl
    · rfl

theorem recvQueue_answered (state : BusClient) (connection : Nat) (again : Bool)
    (frame : ServerFrame) : (answered state connection again frame).recvQueue = state.recvQueue := by
  cases frame <;> cases again <;> rfl

theorem recvQueue_receiveFrame (net : Network) (reader : Nat) (acknowledges : Bool)
    (frame : ServerFrame) (client : Nat) :
    ((net.receiveFrame reader acknowledges frame).clients client).recvQueue =
      (net.clients client).recvQueue ++
        if reader = client then frame.carried.toList else [] := by
  cases frame with
  | message message =>
      have queued : ((net.setClient reader { net.clients reader with
          recvQueue := (net.clients reader).recvQueue ++ [message] }).clients client).recvQueue =
          (net.clients client).recvQueue ++ if reader = client then [message] else [] := by
        unfold setClient
        dsimp only
        by_cases same : client = reader
        · rw [if_pos same, if_pos same.symm, same]
        · rw [if_neg same, if_neg (Ne.symm same), List.append_nil]
      unfold receiveFrame
      dsimp only [ServerFrame.carried, Option.toList]
      rw [← queued]
      split
      · split
        · rw [clients_send]
        · refine recvQueue_setClient ?_ client
          rw [clients_setClient_self]
      · rfl
  | _ =>
      unfold receiveFrame ServerFrame.carried
      dsimp only [Option.toList]
      split
      · exact (List.append_nil _).symm
      · exact (List.append_nil _).symm

theorem received_read (net : Network) (reader : Nat) (acknowledges : Bool) (client : Nat) :
    net.received client (.read reader acknowledges) =
      if reader = client then
        match (net.clients reader).phase with
        | .receiving connection =>
            ((net.sockets connection).down.head?.bind ServerFrame.carried).toList
        | _ => []
      else [] := by
  unfold Network.received
  dsimp only
  split
  · rename_i same
    rw [same]
    cases (net.clients client).phase with
    | receiving connection =>
        dsimp only
        cases (net.sockets connection).down with
        | nil => rfl
        | cons frame rest => cases frame <;> rfl
    | _ => rfl
  · rfl

theorem recvQueue_read (net : Network) (reader : Nat) (acknowledges : Bool) (client : Nat) :
    ((net.read reader acknowledges).clients client).recvQueue =
      (net.clients client).recvQueue ++ net.received client (.read reader acknowledges) := by
  rw [received_read]
  unfold read
  cases phase : (net.clients reader).phase with
  | apart =>
      dsimp only
      rw [ite_self, List.append_nil]
  | subscribing connection again =>
      dsimp only
      rw [ite_self, List.append_nil]
      cases (net.sockets connection).down with
      | nil => rfl
      | cons frame rest =>
          refine (recvQueue_setClient ?_ client).trans rfl
          exact recvQueue_answered ..
  | receiving connection =>
      dsimp only
      cases first : (net.sockets connection).down with
      | nil =>
          dsimp only [List.head?_nil, Option.bind_none, Option.toList_none]
          rw [ite_self, List.append_nil]
      | cons frame rest => exact recvQueue_receiveFrame ..

/-- What the owner of a client is returned was put into the client's queue before. -/
theorem flows_returned (client : Nat) (net : Network) (event : NetworkEvent) :
    Flows step (fun net => (net.clients client).recvQueue) (received client) (returned client) net
      event := by
  have unchanged {after : Network}
      (same : (after.clients client).recvQueue = (net.clients client).recvQueue) :
      (net.clients client).recvQueue ++ [] = [] ++ (after.clients client).recvQueue := by
    rw [List.append_nil, List.nil_append, same]
  unfold Flows
  cases event with
  | dial dialler again =>
      refine unchanged ?_
      unfold Network.step dial
      dsimp only
      split
      · refine (recvQueue_setClient ?_ client).trans rfl
        rfl
      · rfl
  | attemptFails other =>
      refine unchanged ?_
      unfold Network.step attemptFails
      dsimp only
      split
      · refine (recvQueue_setClient ?_ client).trans rfl
        rfl
      · rfl
  | connectionClosed other =>
      refine unchanged ?_
      unfold Network.step connectionClosed
      dsimp only
      split
      · refine (recvQueue_setClient ?_ client).trans rfl
        rfl
      · rfl
  | disconnect other =>
      refine unchanged ((recvQueue_setClient ?_ client).trans rfl)
      rfl
  | read reader acknowledges => exact (recvQueue_read net reader acknowledges client).symm
  | publish other message freshAck =>
      exact unchanged (congrArg (fun clients => (clients client).recvQueue) (clients_send ..))
  | subscribe other workflowId =>
      exact unchanged (congrArg (fun clients => (clients client).recvQueue) (clients_send ..))
  | ack other messageId =>
      exact unchanged (congrArg (fun clients => (clients client).recvQueue) (clients_send ..))
  | heartbeat other =>
      exact unchanged (congrArg (fun clients => (clients client).recvQueue) (clients_send ..))
  | waitForMessage other =>
      dsimp only [Network.step, Network.received, returned, setClient]
      rw [List.append_nil]
      by_cases same : other = client
      · subst same
        rw [if_pos rfl, if_pos rfl]
        cases (net.clients other).recvQueue with
        | nil => rfl
        | cons message rest => rfl
      · rw [if_neg same, if_neg (Ne.symm same), List.nil_append]
  | pendingMessages other =>
      dsimp only [Network.step, Network.received, returned, setClient]
      rw [List.append_nil]
      by_cases same : other = client
      · subst same
        rw [if_pos rfl, if_pos rfl, List.append_nil]
      · rw [if_neg same, if_neg (Ne.symm same), List.nil_append]
  | handle connection =>
      exact unchanged (congrArg (fun clients => (clients client).recvQueue) (clients_handle ..))
  | server event =>
      exact unchanged (congrArg (fun clients => (clients client).recvQueue) (clients_serverStep ..))

/-- Clients as they are made. -/
def begin (clients : Nat → BusClient) : Network := { clients }

theorem sound_begin {clients : Nat → BusClient}
    (new : ∀ client, (clients client).phase = .apart ∧ (clients client).ws = none ∧
      (clients client).recvQueue = []) : (begin clients).Sound where
  paced := ⟨tidy_empty, (by intro _ _ found; cases found), (by intro _ _ _ found; cases found)⟩
  used client connection uses := by
    rcases uses with reads | writes
    · change (clients client).phase.connection = some connection at reads
      rw [(new client).1] at reads
      cases reads
    · cases (new client).2.1.symm.trans writes
  subscribes _ _ _ _ here := by cases here
  sessions _ _ found := by cases found
  unopened _ _ := rfl

/-- A client loses its socket with the first message in it, and connects again. -/
def reconnection : List NetworkEvent :=
  let message (name : String) : NetworkEvent :=
    .server (.publish { messageId := name, toAgentId := some "a" } "")
  [.dial 0 false, .handle 0, .read 0 true, message "1", .server (.pushWait 0),
    .server (.pushTake 0 .sent), .connectionClosed 0, .dial 0 true, .handle 1, .read 0 true,
    message "2", .server (.pushWait 1), .server (.pushTake 1 .sent), .read 0 true,
    .waitForMessage 0]

end Network

end YouMi.Bus
