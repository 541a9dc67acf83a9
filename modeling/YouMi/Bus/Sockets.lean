import YouMi.Bus.Network
import YouMi.Bus.Backlogs

/-!
# What is on its way to a client

What a client has got, what comes through its socket, what a push loop has taken for it
and the backlog of its agent follow each other in the order in which the messages were put
into the queue.  Here are the steps of clients and of push loops that keep this.
-/

namespace YouMi.Bus

open YouMi.Library InProcessBroker

/-! ## Sockets -/

/-- The socket that a client reads. -/
def ClientPhase.connection : ClientPhase → Option Nat
  | .apart => none
  | .subscribing connection _ => some connection
  | .receiving connection => some connection

def ServerFrame.carried : ServerFrame → Option WorkflowMessage
  | .message held => some held
  | _ => none

/-- The messages that were written for a client and not read. -/
def Socket.coming (socket : Socket) : List WorkflowMessage :=
  socket.down.filterMap ServerFrame.carried

namespace Network

variable {net after : Network} {agent : String} {on : Option Nat}
  {got got' put' : List WorkflowMessage}

def sendingOn (net : Network) (connection : Nat) : List WorkflowMessage :=
  match net.server.sessions.lookup connection with
  | none => []
  | some session => BusServer.sendingOf session.push

/-- What is on its way through a socket. -/
def way (net : Network) : Option Nat → List WorkflowMessage
  | none => []
  | some connection => (net.sockets connection).coming ++ net.sendingOn connection

/-- A client and the server agree on whose socket it is. -/
structure Sound (net : Network) : Prop where
  paced : net.server.Paced
  used : ∀ client connection,
    (net.clients client).phase.connection = some connection ∨
      (net.clients client).ws = some connection →
    connection < net.opened ∧ (net.sockets connection).agentId = (net.clients client).agentId
  subscribes : ∀ connection agentId workflowId principal,
    BusEnvelope.subscribe agentId workflowId principal ∈ (net.sockets connection).up →
      agentId = (net.sockets connection).agentId
  sessions : ∀ connection session, net.server.sessions.lookup connection = some session →
    connection < net.opened ∧ session.agentId = (net.sockets connection).agentId
  unopened : ∀ connection, net.opened ≤ connection → (net.sockets connection).up = []

/-- What a client has got, what is on its way to it and what waits for it come from what was
put into the queue of its agent, in order. -/
def Ordered (net : Network) (agent : String) (on : Option Nat) (got put' : List WorkflowMessage) :
    Prop :=
  ∃ first, first ≤ net.server.broker.queuesMade ∧
    (∀ number, net.server.broker.queues.lookup agent = some number → first ≤ number) ∧
    (∀ connection ∈ on, ∀ session number,
      net.server.sessions.lookup connection = some session → session.push = .waiting number →
        first ≤ number) ∧
    ((got ++ net.way on) ++ net.server.broker.backlog agent first).Sublist put'

/-- A step that leaves the server as it is. -/
theorem Ordered.of_client (ordered : net.Ordered agent on got put') {on' : Option Nat}
    (server : after.server = net.server)
    (same : ∀ connection ∈ on', connection ∈ on ∨
      net.server.sessions.lookup connection = none)
    (less : (got' ++ after.way on').Sublist (got ++ net.way on)) :
    after.Ordered agent on' got' put' := by
  obtain ⟨first, small, before, waits, kept⟩ := ordered
  unfold Ordered
  rw [server]
  refine ⟨first, small, before, fun connection reads session number found waiting => ?_,
    (less.append_right _).trans kept⟩
  rcases same connection reads with old | fresh
  · exact waits connection old session number found waiting
  · rw [fresh] at found
    cases found

theorem sendingOn_congr (server : after.server = net.server) (connection : Nat) :
    after.sendingOn connection = net.sendingOn connection := by
  unfold sendingOn
  rw [server]

/-- Where a client goes on reading its socket. -/
theorem way_sublist (server : after.server = net.server)
    (coming : ∀ connection ∈ on,
      (after.sockets connection).coming.Sublist (net.sockets connection).coming) :
    (after.way on).Sublist (net.way on) := by
  cases on with
  | none => exact List.Sublist.refl _
  | some connection =>
      dsimp only [way]
      rw [sendingOn_congr server]
      exact (coming connection rfl).append (List.Sublist.refl _)

/-- An event that takes no message: what the server puts into the queue comes last. -/
theorem Ordered.of_quiet (ordered : net.Ordered agent on got put') (paced : net.server.Paced)
    {event : ServerEvent} (quiet : BusServer.Quiet event)
    (server : after.server = net.server.step event)
    (coming : ∀ connection ∈ on,
      (after.sockets connection).coming.Sublist (net.sockets connection).coming)
    (own : ∀ connection ∈ on, ∀ session,
      net.server.sessions.lookup connection = some session → session.agentId = agent) :
    after.Ordered agent on got (put' ++ net.server.addedBy event agent) := by
  obtain ⟨first, small, before, waits, kept⟩ := ordered
  have moves := BusServer.moves_step paced.tidy paced.latest event
  have way : (after.way on).Sublist (net.way on) := by
    cases on with
    | none => exact List.Sublist.refl _
    | some connection =>
        dsimp only [Network.way]
        refine (coming connection rfl).append ?_
        unfold sendingOn
        rw [server]
        cases found : (net.server.step event).sessions.lookup connection with
        | none => exact List.nil_sublist _
        | some later =>
            rcases BusServer.continues_step found with ⟨-, ready, -⟩ | ⟨session, was, goes⟩
            · dsimp only
              rw [ready]
              exact List.nil_sublist _
            · rw [was]
              exact goes.sending quiet
  unfold Ordered
  rw [server]
  refine ⟨first, Nat.le_trans small moves.made, fun number found => ?_,
    fun connection reads later number found waiting => ?_, ?_⟩
  · rcases moves.queues agent number found with old | new
    · exact before number old
    · exact Nat.le_trans small new
  · rcases BusServer.continues_step found with ⟨-, ready, -⟩ | ⟨session, was, goes⟩
    · rw [ready] at waiting
      cases waiting
    · rcases goes.waits number waiting with old | queue
      · exact waits connection reads session number was old
      · rw [own connection reads session was] at queue
        exact before number queue
  · have whole := (way.append_left got).append (moves.backlog agent first small before)
    rw [← List.append_assoc] at whole
    exact whole.trans (kept.append_right _)

theorem coming_writeDown (net : Network) (connection other : Nat) (frames : List ServerFrame) :
    ((net.writeDown connection frames).sockets other).coming =
      (net.sockets other).coming ++
        if other = connection then frames.filterMap ServerFrame.carried else [] := by
  unfold writeDown setSocket Socket.coming
  dsimp only
  split
  · rename_i same
    rw [same, List.filterMap_append]
  · rw [List.append_nil]

theorem sendingOn_of_lookup {connection : Nat} {session : Session}
    (found : net.server.sessions.lookup connection = some session) :
    net.sendingOn connection = BusServer.sendingOf session.push := by
  unfold sendingOn
  rw [found]

/-- What an event of a push loop makes of the network. -/
def pushed (net : Network) (broker : InProcessBroker) (connection : Nat) (session : Session)
    (message : WorkflowMessage) (outcome : SendOutcome) : Network :=
  let server := BusServer.setPush { net.server with broker } connection session
    (BusServer.afterSend message outcome)
  { net with
    server
    sockets := (if outcome = .sent then net.writeDown connection [.message message]
      else net).sockets }

/-- Of what a push loop has taken, it writes or keeps some. -/
theorem way_pushed (net : Network) (broker : InProcessBroker) (connection : Nat)
    (session : Session) (message : WorkflowMessage) (outcome : SendOutcome) (other : Nat) :
    ((net.pushed broker connection session message outcome).way (some other)).Sublist
      (if other = connection then (net.sockets connection).coming ++ [message]
        else net.way (some other)) := by
  have kept : (net.pushed broker connection session message outcome).sendingOn other =
      if other = connection then
        BusServer.sendingOf (BusServer.afterSend message outcome)
      else net.sendingOn other := by
    unfold sendingOn pushed BusServer.setPush
    dsimp only
    rw [OrderedDict.lookup_assign]
    by_cases same : other = connection
    · rw [if_pos same, if_pos same]
    · rw [if_neg same, if_neg same]
  have written :
      ((net.pushed broker connection session message outcome).sockets other).coming =
        (net.sockets other).coming ++
          if other = connection ∧ outcome = .sent then [message] else [] := by
    unfold pushed
    dsimp only
    by_cases sent : outcome = .sent
    · rw [if_pos sent, coming_writeDown]
      simp [sent, ServerFrame.carried]
    · rw [if_neg sent, if_neg fun both => sent both.2, List.append_nil]
  dsimp only [way]
  rw [written, kept]
  by_cases same : other = connection
  · subst same
    rw [if_pos rfl, if_pos rfl, List.append_assoc]
    refine List.Sublist.append_left ?_ _
    cases outcome <;> simp [BusServer.afterSend, BusServer.sendingOf]
  · rw [if_neg same, if_neg same, if_neg fun both => same both.1, List.append_nil]

theorem serverStep_pushTake {connection : Nat} {outcome : SendOutcome} {session : Session}
    {message : WorkflowMessage} {broker : InProcessBroker}
    (taken : net.server.pushTaken connection = some (session, message, broker)) :
    net.serverStep (.pushTake connection outcome) =
      net.pushed broker connection session message outcome := by
  unfold serverStep BusServer.step BusServer.pushTake BusServer.pushes pushed
  cases outcome with
  | sent =>
      dsimp only
      rw [taken]
      rfl
  | raised =>
      dsimp only
      rw [taken]
      rfl
  | suspended =>
      dsimp only
      rw [taken]
      rfl

theorem serverStep_pushResume {connection : Nat} {outcome : SendOutcome} {session : Session}
    {message : WorkflowMessage}
    (found : net.server.sessions.lookup connection = some session)
    (sending : session.push = .sending message) :
    net.serverStep (.pushResume connection outcome) =
      net.pushed net.server.broker connection session message outcome := by
  unfold serverStep BusServer.step BusServer.pushResume BusServer.pushes pushed
  cases outcome with
  | sent =>
      dsimp only
      rw [found]
      dsimp only
      rw [sending]
      rfl
  | raised =>
      dsimp only
      rw [found]
      dsimp only
      rw [sending]
      rfl
  | suspended =>
      dsimp only
      rw [found]
      dsimp only
      rw [sending]
      rfl

theorem pushed_ne_waiting {broker : InProcessBroker} {connection : Nat} {session later : Session}
    {message : WorkflowMessage} {outcome : SendOutcome}
    (found : (net.pushed broker connection session message outcome).server.sessions.lookup
      connection = some later) (number : Nat) : later.push ≠ .waiting number := by
  have same := (OrderedDict.lookup_assign_self).symm.trans found
  cases same
  exact BusServer.afterSend_ne_waiting message outcome number

/-- The push loop of another socket has gone on. -/
theorem Ordered.of_pushed_ne (ordered : net.Ordered agent on got put')
    {connection : Nat} {session : Session} {message : WorkflowMessage} {outcome : SendOutcome}
    {broker : InProcessBroker} (moves : Moves net.server.broker broker fun _ => [])
    (elsewhere : connection ∉ on) :
    (net.pushed broker connection session message outcome).Ordered agent on got put' := by
  obtain ⟨start, small, before, waits, kept⟩ := ordered
  have way : ((net.pushed broker connection session message outcome).way on).Sublist
      (net.way on) := by
    cases on with
    | none => exact List.Sublist.refl _
    | some other =>
        have differ : other ≠ connection := fun same => elsewhere (same ▸ rfl)
        have less := net.way_pushed broker connection session message outcome other
        rw [if_neg differ] at less
        exact less
  refine ⟨start, Nat.le_trans small moves.made, fun number found => ?_,
    fun other reads later number found waiting => ?_, ?_⟩
  · rcases moves.queues agent number found with old | new
    · exact before number old
    · exact Nat.le_trans small new
  · have differ : other ≠ connection := fun same => elsewhere (same ▸ reads)
    refine waits other reads later number ?_ waiting
    exact (OrderedDict.lookup_assign_ne differ).symm.trans found
  · have rest := moves.backlog agent start small before
    rw [List.append_nil] at rest
    exact ((way.append_left got).append rest).trans kept

/-- A push loop takes a message. -/
theorem ordered_pushTake (sound : net.Sound) (ordered : net.Ordered agent on got put')
    (own : ∀ connection ∈ on, (net.sockets connection).agentId = agent) (connection : Nat)
    (outcome : SendOutcome) :
    (net.serverStep (.pushTake connection outcome)).Ordered agent on got put' := by
  cases taken : net.server.pushTaken connection with
  | none =>
      have idle : net.serverStep (.pushTake connection outcome) = net := by
        unfold serverStep BusServer.step BusServer.pushTake BusServer.pushes
        cases outcome <;> simp [taken]
      rw [idle]
      exact ordered
  | some all =>
      obtain ⟨session, message, broker⟩ := all
      obtain ⟨found, number, holds, first⟩ := BusServer.pushTaken_eq_some taken
      rw [serverStep_pushTake taken]
      by_cases reads : connection ∈ on
      · cases reads
        obtain ⟨start, small, before, waits, kept⟩ := ordered
        obtain ⟨made, newest⟩ := sound.paced.waits connection session number found holds
        have same_agent : session.agentId = agent :=
          (sound.sessions connection session found).2.trans (own connection rfl)
        rw [same_agent] at first newest
        have tables := sameTables_takeFirst first
        have way := net.way_pushed broker connection session message outcome connection
        rw [if_pos rfl] at way
        have way_before : net.way (some connection) = (net.sockets connection).coming := by
          dsimp only [Network.way]
          rw [sendingOn_of_lookup found, holds]
          exact List.append_nil _
        refine ⟨number, ?_, ?_, fun other _ later other_number found_later waiting => ?_, ?_⟩
        · exact Nat.le_of_lt (Nat.lt_of_lt_of_eq made tables.queuesMade.symm)
        · intro current found_current
          refine newest current ?_
          rw [← tables.queues]
          exact found_current
        · cases ‹other ∈ some connection›
          exact absurd waiting (pushed_ne_waiting found_later other_number)
        · have least := waits connection rfl session number found holds
          have taken_first := BusServer.backlog_takeFirst made first
          have same : (got ++ ((net.sockets connection).coming ++ [message])) ++
                broker.backlog agent number =
              (got ++ net.way (some connection)) ++ net.server.broker.backlog agent number := by
            rw [taken_first, way_before]
            simp only [List.append_assoc, List.singleton_append]
          have whole := (way.append_left got).append_right (broker.backlog agent number)
          rw [same] at whole
          exact whole.trans (((backlog_sublist_of_le least).append_left _).trans kept)
      · exact ordered.of_pushed_ne
          (moves_takeFirst sound.paced.tidy sound.paced.latest first) reads

/-- A push loop goes on with the message it has taken. -/
theorem ordered_pushResume (sound : net.Sound) (ordered : net.Ordered agent on got put')
    (connection : Nat) (outcome : SendOutcome) :
    (net.serverStep (.pushResume connection outcome)).Ordered agent on got put' := by
  have idle (same : net.server.pushResume connection outcome = net.server)
      (silent : net.server.pushes (.pushResume connection outcome) = none) :
      net.serverStep (.pushResume connection outcome) = net := by
    unfold serverStep BusServer.step
    dsimp only
    rw [silent, same]
  cases found : net.server.sessions.lookup connection with
  | none =>
      rw [idle]
      · exact ordered
      · unfold BusServer.pushResume
        rw [found]
      · unfold BusServer.pushes
        cases outcome <;> simp [found]
  | some session =>
      by_cases sending : ∃ message, session.push = .sending message
      · obtain ⟨message, sending⟩ := sending
        rw [serverStep_pushResume found sending]
        have unmoved := Moves.refl sound.paced.tidy sound.paced.latest
        by_cases reads : connection ∈ on
        · cases reads
          obtain ⟨start, small, before, waits, kept⟩ := ordered
          have way := net.way_pushed net.server.broker connection session message outcome connection
          have way_before : net.way (some connection) =
              (net.sockets connection).coming ++ [message] := by
            dsimp only [Network.way]
            rw [sendingOn_of_lookup found, sending]
            rfl
          rw [if_pos rfl, ← way_before] at way
          refine ⟨start, small, before, fun other _ later number found_later waiting => ?_, ?_⟩
          · cases ‹other ∈ some connection›
            exact absurd waiting (pushed_ne_waiting found_later number)
          · exact ((way.append_left got).append_right _).trans kept
        · exact ordered.of_pushed_ne unmoved reads
      · rw [idle]
        · exact ordered
        · unfold BusServer.pushResume
          rw [found]
          dsimp only
          split
          · rename_i message holds
            exact absurd ⟨message, holds⟩ sending
          · rfl
        · unfold BusServer.pushes
          cases outcome with
          | sent =>
              dsimp only
              rw [found]
              dsimp only
              split
              · rename_i message holds
                exact absurd ⟨message, holds⟩ sending
              · rfl
          | raised => rfl
          | suspended => rfl

/-! ## Clients -/

def Uses (net : Network) (client connection : Nat) : Prop :=
  (net.clients client).phase.connection = some connection ∨
    (net.clients client).ws = some connection

/-- What a client does by itself: it writes on its socket, reads from it or leaves it. -/
structure Steers (net after : Network) : Prop where
  server : after.server = net.server
  opened : after.opened = net.opened
  agentId : ∀ client, (after.clients client).agentId = (net.clients client).agentId
  uses : ∀ client connection, after.Uses client connection → net.Uses client connection
  phase : ∀ client connection, (after.clients client).phase.connection = some connection →
    (net.clients client).phase.connection = some connection
  owner : ∀ connection, (after.sockets connection).agentId = (net.sockets connection).agentId
  up : ∀ connection, ∀ envelope ∈ (after.sockets connection).up,
    envelope ∈ (net.sockets connection).up ∨ connection < net.opened ∧
      ∀ agentId workflowId principal, envelope = .subscribe agentId workflowId principal →
        agentId = (net.sockets connection).agentId
  coming : ∀ connection,
    (after.sockets connection).coming.Sublist (net.sockets connection).coming

theorem Steers.refl (net : Network) : Steers net net :=
  ⟨rfl, rfl, fun _ => rfl, fun _ _ uses => uses, fun _ _ reads => reads, fun _ => rfl,
    fun _ _ here => .inl here, fun _ => List.Sublist.refl _⟩

theorem Steers.trans {last : Network} (first : Steers net after) (second : Steers after last) :
    Steers net last where
  server := second.server.trans first.server
  opened := second.opened.trans first.opened
  agentId client := (second.agentId client).trans (first.agentId client)
  uses client connection uses := first.uses client connection (second.uses client connection uses)
  phase client connection reads :=
    first.phase client connection (second.phase client connection reads)
  owner connection := (second.owner connection).trans (first.owner connection)
  up connection envelope here := by
    rcases second.up connection envelope here with old | ⟨small, owned⟩
    · exact first.up connection envelope old
    · rw [first.opened] at small
      rw [first.owner] at owned
      exact .inr ⟨small, owned⟩
  coming connection := (second.coming connection).trans (first.coming connection)

theorem Steers.sound (steers : Steers net after) (sound : net.Sound) : after.Sound where
  paced := by
    rw [steers.server]
    exact sound.paced
  used client connection uses := by
    rw [steers.opened, steers.owner, steers.agentId]
    exact sound.used client connection (steers.uses client connection uses)
  subscribes connection agentId workflowId principal here := by
    rw [steers.owner]
    rcases steers.up connection _ here with old | ⟨-, owned⟩
    · exact sound.subscribes connection agentId workflowId principal old
    · exact owned agentId workflowId principal rfl
  sessions connection session found := by
    rw [steers.server] at found
    rw [steers.opened, steers.owner]
    exact sound.sessions connection session found
  unopened connection large := by
    rw [steers.opened] at large
    refine List.eq_nil_iff_forall_not_mem.mpr fun envelope here => ?_
    rcases steers.up connection envelope here with old | ⟨small, -⟩
    · rw [sound.unopened connection large] at old
      cases old
    · omega

/-- A client that is not handed a message. -/
theorem Steers.ordered (steers : Steers net after) {client : Nat}
    (ordered : net.Ordered agent (net.clients client).phase.connection got put') :
    after.Ordered agent (after.clients client).phase.connection got put' := by
  refine ordered.of_client steers.server
    (fun connection reads => .inl (steers.phase client connection reads)) ?_
  refine List.Sublist.append_left ?_ _
  cases reads : (after.clients client).phase.connection with
  | none => exact List.nil_sublist _
  | some connection =>
      rw [steers.phase client connection reads]
      exact way_sublist steers.server fun other _ => steers.coming other

theorem steers_setClient {client : Nat} {state : BusClient}
    (agentId : state.agentId = (net.clients client).agentId)
    (uses : ∀ connection, state.phase.connection = some connection ∨ state.ws = some connection →
      net.Uses client connection)
    (phase : ∀ connection, state.phase.connection = some connection →
      (net.clients client).phase.connection = some connection) :
    Steers net (net.setClient client state) where
  server := rfl
  opened := rfl
  agentId other := by
    unfold setClient
    dsimp only
    split
    · rename_i same
      rw [same, agentId]
    · rfl
  uses other connection used := by
    unfold Uses setClient at used
    dsimp only at used
    split at used
    · rename_i same
      rw [same]
      exact uses connection used
    · exact used
  phase other connection reads := by
    unfold setClient at reads
    dsimp only at reads
    split at reads
    · rename_i same
      rw [same]
      exact phase connection reads
    · exact reads
  owner _ := rfl
  up _ _ here := .inl here
  coming _ := List.Sublist.refl _

/-- The client goes on with its sockets as before, or leaves them. -/
theorem steers_state {client : Nat} {state : BusClient}
    (agentId : state.agentId = (net.clients client).agentId)
    (ws : state.ws = (net.clients client).ws ∨ state.ws = none)
    (phase : state.phase.connection = (net.clients client).phase.connection ∨
      state.phase.connection = none) : Steers net (net.setClient client state) := by
  have reads : ∀ connection, state.phase.connection = some connection →
      (net.clients client).phase.connection = some connection := by
    intro connection reads
    rcases phase with same | left
    · exact same.symm.trans reads
    · cases left.symm.trans reads
  refine steers_setClient agentId (fun connection used => ?_) reads
  rcases used with now | now
  · exact .inl (reads connection now)
  · rcases ws with same | left
    · exact .inr (same.symm.trans now)
    · cases left.symm.trans now

theorem steers_send (sound : net.Sound) {client : Nat} {envelope : BusEnvelope}
    (own : ∀ agentId workflowId principal, envelope = .subscribe agentId workflowId principal →
      agentId = (net.clients client).agentId) : Steers net (net.send client envelope) := by
  unfold send
  split
  · exact Steers.refl net
  · rename_i connection uses
    split
    · obtain ⟨small, owner⟩ := sound.used client connection (.inr uses)
      refine ⟨rfl, rfl, fun _ => rfl, fun _ _ used => used, fun _ _ reads => reads, fun other => ?_,
        fun other written here => ?_, fun other => ?_⟩
      · unfold writeUp setSocket
        dsimp only
        split
        · rename_i same
          rw [same]
        · rfl
      · unfold writeUp setSocket at here
        dsimp only at here
        split at here
        · rename_i same
          subst same
          rcases List.mem_append.mp here with old | new
          · exact .inl old
          · rw [List.mem_singleton.mp new, owner]
            exact .inr ⟨small, own⟩
        · exact .inl here
      · unfold writeUp setSocket
        dsimp only
        split
        · rename_i same
          rw [same]
          exact List.Sublist.refl _
        · exact List.Sublist.refl _
    · exact Steers.refl net

/-- A client reads the first frame of a socket. -/
theorem steers_setSocket {connection : Nat} {frame : ServerFrame} {rest : List ServerFrame}
    (first : (net.sockets connection).down = frame :: rest) :
    Steers net (net.setSocket connection { net.sockets connection with down := rest }) := by
  refine ⟨rfl, rfl, fun _ => rfl, fun _ _ used => used, fun _ _ reads => reads, fun other => ?_,
    fun other written here => ?_, fun other => ?_⟩
  · unfold setSocket
    dsimp only
    split
    · rename_i same
      rw [same]
    · rfl
  · unfold setSocket at here
    dsimp only at here
    split at here
    · rename_i same
      rw [same]
      exact .inl here
    · exact .inl here
  · unfold setSocket
    dsimp only
    split
    · rename_i same
      rw [same]
      unfold Socket.coming
      rw [first]
      exact (List.sublist_cons_self frame rest).filterMap _
    · exact List.Sublist.refl _

theorem clients_setClient_self (net : Network) (client : Nat) (state : BusClient) :
    (net.setClient client state).clients client = state := if_pos rfl

theorem steers_receiveFrame (sound : net.Sound) (client : Nat) (acknowledges : Bool)
    (frame : ServerFrame) : Steers net (net.receiveFrame client acknowledges frame) := by
  cases frame with
  | message message =>
      unfold receiveFrame
      dsimp only
      have queued : Steers net (net.setClient client { net.clients client with
          recvQueue := (net.clients client).recvQueue ++ [message] }) :=
        steers_state rfl (.inl rfl) (.inl rfl)
      split
      · split
        · exact queued.trans (steers_send (queued.sound sound) nofun)
        · refine queued.trans (steers_state ?_ (.inl ?_) (.inr rfl))
          · rw [clients_setClient_self]
          · rw [clients_setClient_self]
      · exact queued
  | _ => exact Steers.refl net

theorem steers_answered (connection : Nat) (again : Bool) {client : Nat} (frame : ServerFrame)
    (waits : (net.clients client).phase = .subscribing connection again) :
    Steers net (net.setClient client (answered (net.clients client) connection again frame)) := by
  have goes_on : (ClientPhase.receiving connection).connection =
      (net.clients client).phase.connection := by
    rw [waits]
    rfl
  have refused : Steers net (net.setClient client
      (if again then { net.clients client with connected := false, phase := .apart }
        else { net.clients client with connected := false, ws := none, phase := .apart })) := by
    split
    · exact steers_state rfl (.inl rfl) (.inr rfl)
    · exact steers_state rfl (.inr rfl) (.inr rfl)
  have other : Steers net (net.setClient client
      (if again then { net.clients client with phase := .apart }
        else { net.clients client with phase := .receiving connection })) := by
    split
    · exact steers_state rfl (.inl rfl) (.inr rfl)
    · exact steers_state rfl (.inl rfl) (.inl goes_on)
  cases frame with
  | subscribed => exact steers_state rfl (.inl rfl) (.inl goes_on)
  | unauthorized => exact refused
  | error => exact refused
  | heartbeatAck => exact other
  | message message => exact other

theorem steers_read (sound : net.Sound) (client : Nat) (acknowledges : Bool) :
    Steers net (net.read client acknowledges) := by
  unfold read
  split
  · exact Steers.refl net
  · rename_i connection again waits
    split
    · exact Steers.refl net
    · rename_i frame rest first
      exact (steers_setSocket first).trans (steers_answered connection again frame waits)
  · rename_i connection reads
    split
    · exact Steers.refl net
    · rename_i frame rest first
      have taken := steers_setSocket first
      exact taken.trans (steers_receiveFrame (taken.sound sound) client acknowledges frame)

/-- What a client is handed was first on its way. -/
theorem ordered_read (sound : net.Sound) {client : Nat}
    (ordered : net.Ordered agent (net.clients client).phase.connection got put') (reader : Nat)
    (acknowledges : Bool) :
    (net.read reader acknowledges).Ordered agent
      ((net.read reader acknowledges).clients client).phase.connection
      (got ++ net.received client (.read reader acknowledges)) put' := by
  by_cases handed : ∃ connection message rest,
      (net.clients client).phase = .receiving connection ∧
        (net.sockets connection).down = .message message :: rest ∧ reader = client
  · obtain ⟨connection, message, rest, reads, first, rfl⟩ := handed
    have taken := steers_setSocket first
    have mid : (net.setSocket connection
        { net.sockets connection with down := rest }).Ordered agent (some connection)
          (got ++ [message]) put' := by
      rw [reads] at ordered
      have left : (net.setSocket connection
          { net.sockets connection with down := rest }).sockets connection =
            { net.sockets connection with down := rest } := if_pos rfl
      have head : net.way (some connection) = message :: (net.setSocket connection
          { net.sockets connection with down := rest }).way (some connection) := by
        dsimp only [way]
        rw [left]
        unfold Socket.coming
        rw [first]
        rfl
      refine ordered.of_client rfl (fun _ same => .inl same) ?_
      change List.Sublist _ (got ++ net.way (some connection))
      rw [head, List.append_assoc, List.singleton_append]
    have received : net.received reader (.read reader acknowledges) = [message] := by
      unfold Network.received
      dsimp only
      rw [if_pos rfl, reads]
      dsimp only
      rw [first]
    have goes : net.read reader acknowledges =
        (net.setSocket connection { net.sockets connection with down := rest }).receiveFrame reader
          acknowledges (.message message) := by
      unfold read
      rw [reads]
      dsimp only
      rw [first]
    rw [received, goes]
    refine (steers_receiveFrame (taken.sound sound) reader acknowledges (.message message)).ordered ?_
    change (net.setSocket connection { net.sockets connection with down := rest }).Ordered agent
      (net.clients reader).phase.connection (got ++ [message]) put'
    rw [reads]
    exact mid
  · have nothing : net.received client (.read reader acknowledges) = [] := by
      unfold Network.received
      dsimp only
      split
      · rename_i same
        split
        · rename_i connection reads
          split
          · rename_i message rest first
            exact absurd ⟨connection, message, rest, reads, first, same⟩ handed
          · rfl
        · rfl
      · rfl
    rw [nothing, List.append_nil]
    exact (steers_read sound reader acknowledges).ordered ordered

end Network

end YouMi.Bus
