import YouMi.Bus.PushLoop

/-!
# What waits for an agent at the server

The backlog of an agent is what its queue objects hold, in the order in which they were
made.  A publication is the last of it, and a push loop takes the first of it from the
object on that it waits for.
-/

namespace YouMi.Bus

open YouMi.Library

namespace InProcessBroker

variable {broker after : InProcessBroker} {agent : String}

/-! ## What is still to be taken -/

/-- What the queue objects of an agent hold, from a number on. -/
def backlog (broker : InProcessBroker) (agent : String) (first : Nat) : List WorkflowMessage :=
  (List.range' first (broker.queuesMade - first)).flatMap (broker.held agent)

theorem backlog_of_lt {first : Nat} (made : first < broker.queuesMade) :
    broker.backlog agent first = broker.held agent first ++ broker.backlog agent (first + 1) := by
  unfold backlog
  obtain ⟨rest, same⟩ : ∃ rest, broker.queuesMade - first = rest + 1 :=
    ⟨broker.queuesMade - first - 1, by omega⟩
  have less : broker.queuesMade - (first + 1) = rest := by omega
  rw [same, less, List.range'_succ, List.flatMap_cons]

theorem backlog_of_le {first : Nat} (unmade : broker.queuesMade ≤ first) :
    broker.backlog agent first = [] := by
  unfold backlog
  rw [Nat.sub_eq_zero_of_le unmade]
  rfl

/-- Later objects are part of the backlog. -/
theorem backlog_sublist_of_le {first later : Nat} (le : first ≤ later) :
    (broker.backlog agent later).Sublist (broker.backlog agent first) := by
  induction le with
  | refl => exact List.Sublist.refl _
  | @step later le ih =>
      refine List.Sublist.trans ?_ ih
      by_cases made : later < broker.queuesMade
      · rw [backlog_of_lt made]
        exact List.sublist_append_right _ _
      · rw [backlog_of_le (Nat.le_of_not_lt made), backlog_of_le (by omega)]

/-- Nothing is in the objects after the one the agent is subscribed with. -/
def Latest (broker : InProcessBroker) : Prop :=
  ∀ agent current, broker.queues.lookup agent = some current →
    ∀ number, current < number → broker.held agent number = []

/-- The backlog ends with the object the agent is subscribed with. -/
theorem backlog_eq_append (latest : broker.Latest) {first current : Nat}
    (found : broker.queues.lookup agent = some current) (le : first ≤ current)
    (made : current < broker.queuesMade) :
    broker.backlog agent first =
      (List.range' first (current - first)).flatMap (broker.held agent) ++
        broker.held agent current := by
  have numbers : List.range' first (broker.queuesMade - first) =
      List.range' first (current - first) ++
        current :: List.range' (current + 1) (broker.queuesMade - current - 1) := by
    have split := List.range'_append_1 (s := first) (m := current - first)
      (n := broker.queuesMade - current)
    rw [Nat.add_sub_cancel' le] at split
    have rest : broker.queuesMade - current = (broker.queuesMade - current - 1) + 1 := by omega
    have total : current - first + (broker.queuesMade - current) = broker.queuesMade - first := by
      omega
    rw [total] at split
    rw [← split]
    nth_rewrite 1 [rest]
    rw [List.range'_succ]
  have after_it : (List.range' (current + 1) (broker.queuesMade - current - 1)).flatMap
      (broker.held agent) = [] :=
    List.flatMap_eq_nil_iff.mpr fun number later =>
      latest agent current found number (List.mem_range'_1.mp later).1
  unfold backlog
  rw [numbers, List.flatMap_append, List.flatMap_cons, after_it, List.append_nil]

theorem flatMap_sublist_flatMap {f g : Nat → List WorkflowMessage} {numbers : List Nat}
    (each : ∀ number, (f number).Sublist (g number)) :
    (numbers.flatMap f).Sublist (numbers.flatMap g) := by
  induction numbers with
  | nil => exact List.Sublist.refl _
  | cons number numbers ih =>
      rw [List.flatMap_cons, List.flatMap_cons]
      exact (each number).append ih

/-- The operation puts at most `added` into the queues, in the objects the agents are
subscribed with, and a queue object it makes is new. -/
structure Moves (broker after : InProcessBroker) (added : String → List WorkflowMessage) :
    Prop where
  tidy : Tidy after
  latest : after.Latest
  made : broker.queuesMade ≤ after.queuesMade
  queues : ∀ agent number, after.queues.lookup agent = some number →
    broker.queues.lookup agent = some number ∨ broker.queuesMade ≤ number
  backlog : ∀ agent first, first ≤ broker.queuesMade →
    (∀ number, broker.queues.lookup agent = some number → first ≤ number) →
      (after.backlog agent first).Sublist (broker.backlog agent first ++ added agent)

theorem Moves.refl (tidy : Tidy broker) (latest : broker.Latest) :
    Moves broker broker fun _ => [] where
  tidy := tidy
  latest := latest
  made := Nat.le_refl _
  queues _ _ found := .inl found
  backlog agent first _ _ := by rw [List.append_nil]

theorem latest_publish (tidy : Tidy broker) (latest : broker.Latest) (message : WorkflowMessage)
    (freshAck : String) : (broker.publish message freshAck).Latest := by
  intro agent current found number later
  rw [(sameTables_publish broker message freshAck).queues] at found
  have elsewhere : ¬(agent ∈ broker.resolveTargets message ∧
      broker.queues.lookup agent = some number) := by
    rintro ⟨-, same⟩
    cases found.symm.trans same
    exact Nat.lt_irrefl _ later
  rw [held_publish tidy, latest agent current found number later, if_neg elsewhere,
    List.append_nil]

/-- A publication is the last of the backlog of each agent that it is put into the queue of. -/
theorem backlog_publish (tidy : Tidy broker) (latest : broker.Latest) (message : WorkflowMessage)
    (freshAck : String) {first : Nat}
    (le : ∀ number, broker.queues.lookup agent = some number → first ≤ number) :
    (broker.publish message freshAck).backlog agent first =
      broker.backlog agent first ++
        if agent ∈ broker.resolveTargets message ∧ broker.queues.lookup agent ≠ none then
          [message.stamp freshAck]
        else [] := by
  have tables := sameTables_publish broker message freshAck
  by_cases placed : agent ∈ broker.resolveTargets message ∧ broker.queues.lookup agent ≠ none
  · obtain ⟨target, subscribed⟩ := placed
    obtain ⟨current, found⟩ := Option.ne_none_iff_exists'.mp subscribed
    have made := tidy.numbers agent current found
    have earlier : (List.range' first (current - first)).flatMap
          ((broker.publish message freshAck).held agent) =
        (List.range' first (current - first)).flatMap (broker.held agent) := by
      refine List.flatMap_congr fun number member => ?_
      have other : current ≠ number := by
        have bound := (List.mem_range'_1.mp member).2
        have start := le current found
        omega
      rw [held_publish tidy, found, if_neg fun both => other (Option.some.inj both.2),
        List.append_nil]
    rw [backlog_eq_append (latest_publish tidy latest message freshAck)
        (by rw [tables.queues]; exact found) (le current found) (by rw [tables.queuesMade]; exact made),
      backlog_eq_append latest found (le current found) made, earlier, held_publish tidy,
      if_pos ⟨target, found⟩, if_pos ⟨target, subscribed⟩, List.append_assoc]
  · have same : (broker.publish message freshAck).held agent = broker.held agent := by
      funext number
      have elsewhere : ¬(agent ∈ broker.resolveTargets message ∧
          broker.queues.lookup agent = some number) := by
        rintro ⟨target, found⟩
        exact placed ⟨target, by rw [found]; exact nofun⟩
      rw [held_publish tidy, if_neg elsewhere, List.append_nil]
    unfold backlog
    rw [same, tables.queuesMade, if_neg placed, List.append_nil]

theorem moves_publish (tidy : Tidy broker) (latest : broker.Latest) (message : WorkflowMessage)
    (freshAck : String) :
    Moves broker (broker.publish message freshAck) fun agent =>
      if agent ∈ broker.resolveTargets message ∧ broker.queues.lookup agent ≠ none then
        [message.stamp freshAck]
      else [] where
  tidy := tidy_publish tidy message freshAck
  latest := latest_publish tidy latest message freshAck
  made := Nat.le_of_eq (sameTables_publish broker message freshAck).queuesMade.symm
  queues agent number found := by
    rw [(sameTables_publish broker message freshAck).queues] at found
    exact .inl found
  backlog agent first _ le := by
    rw [backlog_publish tidy latest message freshAck le]

theorem moves_ack (tidy : Tidy broker) (latest : broker.Latest) (agentId messageId : String) :
    Moves broker (broker.ack agentId messageId) fun _ => [] :=
  { Moves.refl tidy latest with tidy := tidy_ack tidy agentId messageId }

theorem moves_subscribe (tidy : Tidy broker) (latest : broker.Latest)
    (agentId workflowId tenant : String) :
    Moves broker (broker.subscribe agentId workflowId tenant) fun _ => [] where
  tidy := tidy_subscribe tidy agentId workflowId tenant
  latest := by
    intro agent current found number later
    rw [queues_subscribe] at found
    rw [held_subscribe]
    split at found
    · cases found
      exact tidy.unmade agent number (by omega)
    · exact latest agent current found number later
  made := by
    rw [queuesMade_subscribe]
    split <;> omega
  queues agent number found := by
    rw [queues_subscribe] at found
    split at found
    · cases found
      exact .inr (Nat.le_refl _)
    · exact .inl found
  backlog := by
    intro agent first small _
    unfold InProcessBroker.backlog
    rw [held_subscribe, queuesMade_subscribe, List.append_nil]
    split
    · have more : broker.queuesMade + 1 - first = (broker.queuesMade - first) + 1 := by omega
      rw [more, List.range'_1_concat, List.flatMap_append, List.flatMap_singleton,
        tidy.unmade agent _ (by omega), List.append_nil]
    · exact List.Sublist.refl _

theorem lookup_of_unsubscribe {agentId : String} {number : Nat}
    (found : (broker.unsubscribe agentId).queues.lookup agent = some number) :
    broker.queues.lookup agent = some number := by
  change (broker.queues.erase agentId).lookup agent = some number at found
  rw [OrderedDict.lookup_erase] at found
  split at found
  · cases found
  · exact found

theorem moves_unsubscribe (tidy : Tidy broker) (latest : broker.Latest) (agentId : String) :
    Moves broker (broker.unsubscribe agentId) fun _ => [] where
  tidy := tidy_unsubscribe tidy agentId
  latest := by
    intro agent current found number later
    exact latest agent current (lookup_of_unsubscribe found) number later
  made := Nat.le_refl _
  queues agent number found := .inl (lookup_of_unsubscribe found)
  backlog agent first _ _ := by
    rw [List.append_nil]
    exact List.Sublist.refl _

theorem moves_takeFirst (tidy : Tidy broker) (latest : broker.Latest) {agentId : String}
    {number : Nat} {message : WorkflowMessage}
    (taken : broker.takeFirst agentId number = some (message, after)) :
    Moves broker after fun _ => [] where
  tidy := tidy_takeFirst tidy taken
  latest := by
    intro agent current found other later
    rw [(sameTables_takeFirst taken).queues] at found
    obtain ⟨first, others⟩ := held_takeFirst taken
    have empty := latest agent current found other later
    by_cases here : agent = agentId ∧ other = number
    · obtain ⟨rfl, rfl⟩ := here
      rw [empty] at first
      cases first
    · rw [others agent other here]
      exact empty
  made := Nat.le_of_eq (sameTables_takeFirst taken).queuesMade.symm
  queues agent number found := by
    rw [(sameTables_takeFirst taken).queues] at found
    exact .inl found
  backlog := by
    intro agent first _ _
    unfold InProcessBroker.backlog
    rw [(sameTables_takeFirst taken).queuesMade, List.append_nil]
    refine flatMap_sublist_flatMap fun other => ?_
    obtain ⟨head, others⟩ := held_takeFirst taken
    by_cases here : agent = agentId ∧ other = number
    · obtain ⟨rfl, rfl⟩ := here
      rw [head]
      exact List.sublist_cons_self _ _
    · rw [others agent other here]

end InProcessBroker

open InProcessBroker

namespace BusServer

variable {server : BusServer}

/-- What is put into the queue of an agent. -/
def addedBy (server : BusServer) (event : ServerEvent) (agent : String) : List WorkflowMessage :=
  ((server.putBy event).filter fun placed => placed.1 = agent).map Prod.snd

theorem addedBy_of_published (tidy : Tidy server.broker) {event : ServerEvent}
    {message : WorkflowMessage} {freshAck : String}
    (published : server.published event = some (message, freshAck)) (agent : String) :
    server.addedBy event agent =
      if agent ∈ server.broker.resolveTargets message ∧ server.broker.queues.lookup agent ≠ none then
        [message.stamp freshAck]
      else [] := by
  unfold addedBy putBy
  rw [published]
  dsimp only
  have once := (nodup_resolveTargets tidy message).filter
    (fun target => (server.broker.queues.lookup target).isSome)
  rw [List.filter_map, List.map_map]
  dsimp only [Function.comp_def]
  rw [List.filter_eq, once.count]
  have placed_iff : agent ∈ (server.broker.resolveTargets message).filter
        (fun target => (server.broker.queues.lookup target).isSome) ↔
      agent ∈ server.broker.resolveTargets message ∧
        server.broker.queues.lookup agent ≠ none := by
    rw [List.mem_filter, Option.isSome_iff_ne_none]
  by_cases placed : agent ∈ server.broker.resolveTargets message ∧
      server.broker.queues.lookup agent ≠ none
  · rw [if_pos (placed_iff.mpr placed), if_pos placed]
    rfl
  · rw [if_neg fun member => placed (placed_iff.mp member), if_neg placed]
    rfl

theorem addedBy_of_silent {event : ServerEvent} (silent : server.published event = none)
    (agent : String) : server.addedBy event agent = [] := by
  unfold addedBy putBy
  rw [silent]
  rfl

/-- What is taken was the first of the backlog from its object on. -/
theorem backlog_takeFirst {broker after : InProcessBroker} {agent : String} {number : Nat}
    {message : WorkflowMessage} (made : number < broker.queuesMade)
    (taken : broker.takeFirst agent number = some (message, after)) :
    broker.backlog agent number = message :: after.backlog agent number := by
  obtain ⟨head, others⟩ := held_takeFirst taken
  have same_made := (sameTables_takeFirst taken).queuesMade
  have later : after.backlog agent (number + 1) = broker.backlog agent (number + 1) := by
    unfold backlog
    rw [same_made]
    refine List.flatMap_congr fun other member => others agent other ?_
    rintro ⟨-, same⟩
    have bound := (List.mem_range'_1.mp member).1
    omega
  have made_after : number < after.queuesMade := Nat.lt_of_lt_of_eq made same_made.symm
  calc broker.backlog agent number
      = broker.held agent number ++ broker.backlog agent (number + 1) := backlog_of_lt made
    _ = message :: (after.held agent number ++ after.backlog agent (number + 1)) := by
        rw [head, later, List.cons_append]
    _ = message :: after.backlog agent number := by rw [backlog_of_lt made_after]

/-- What every event does to the broker. -/
theorem moves_step (tidy : Tidy server.broker) (latest : server.broker.Latest)
    (event : ServerEvent) :
    Moves server.broker (server.step event).broker (server.addedBy event) := by
  have silently {after : InProcessBroker} (moves : Moves server.broker after fun _ => [])
      (silent : server.published event = none) :
      Moves server.broker after (server.addedBy event) := by
    have none_added : server.addedBy event = fun _ => [] := funext (addedBy_of_silent silent)
    rw [none_added]
    exact moves
  have publishing {message : WorkflowMessage} {freshAck : String}
      (published : server.published event = some (message, freshAck)) :
      Moves server.broker (server.broker.publish message freshAck) (server.addedBy event) := by
    have added := funext (addedBy_of_published tidy published)
    rw [added]
    exact moves_publish tidy latest message freshAck
  cases event with
  | receive connection envelope =>
      unfold BusServer.step handleConnection
      dsimp only
      cases found : server.sessions.lookup connection with
      | none =>
          have silent : server.published (.receive connection envelope) = none := by
            unfold published
            cases envelope with
            | message message freshAck =>
                dsimp only
                rw [found]
            | _ => rfl
          dsimp only
          split
          · exact silently (moves_subscribe tidy latest ..) silent
          · exact silently (Moves.refl tidy latest) silent
      | some session =>
          dsimp only
          split
          · rename_i isOpen
            unfold handleEnvelope
            cases envelope with
            | message message freshAck =>
                refine publishing ?_
                unfold published
                dsimp only
                rw [found]
                exact if_pos isOpen
            | ack messageId =>
                dsimp only
                split
                · exact silently (Moves.refl tidy latest) rfl
                · exact silently (moves_ack tidy latest ..) rfl
            | subscribe agentId workflowId principal =>
                dsimp only
                split
                · exact silently (Moves.refl tidy latest) rfl
                · exact silently (moves_subscribe tidy latest ..) rfl
            | other => exact silently (Moves.refl tidy latest) rfl
          · rename_i closed
            refine silently (Moves.refl tidy latest) ?_
            unfold published
            cases envelope with
            | message message freshAck =>
                dsimp only
                rw [found]
                exact if_neg closed
            | _ => rfl
  | disconnect connection =>
      unfold BusServer.step disconnect
      dsimp only
      split
      · exact silently (Moves.refl tidy latest) rfl
      · split
        · split
          · exact silently (Moves.refl tidy latest) rfl
          · exact silently (moves_unsubscribe tidy latest _) rfl
        · exact silently (Moves.refl tidy latest) rfl
  | publish message freshAck => exact publishing rfl
  | pushWait connection =>
      rw [show (server.step (.pushWait connection)).broker = server.broker from
        (onlyPush_wait connection).broker]
      exact silently (Moves.refl tidy latest) rfl
  | pushTimeout connection =>
      rw [show (server.step (.pushTimeout connection)).broker = server.broker from
        (onlyPush_timeout connection).broker]
      exact silently (Moves.refl tidy latest) rfl
  | pushTake connection outcome =>
      unfold BusServer.step pushTake
      dsimp only
      split
      · exact silently (Moves.refl tidy latest) rfl
      · rename_i taken
        obtain ⟨-, number, -, first⟩ := pushTaken_eq_some taken
        exact silently (moves_takeFirst tidy latest first) rfl
  | pushResume connection outcome =>
      rw [show (server.step (.pushResume connection outcome)).broker = server.broker from
        (onlyPush_resume connection outcome).broker]
      exact silently (Moves.refl tidy latest) rfl

/-! ## Push loops -/

/-- What a push loop has taken and not written. -/
def sendingOf : PushLoop → List WorkflowMessage
  | .sending message => [message]
  | _ => []

/-- The event neither takes a message nor goes on with one that was taken. -/
def Quiet : ServerEvent → Prop
  | .pushTake _ _ | .pushResume _ _ => False
  | _ => True

/-- How an event changes a session. -/
structure Goes (server : BusServer) (event : ServerEvent) (session later : Session) : Prop where
  agentId : later.agentId = session.agentId
  waits : ∀ number, later.push = .waiting number →
    session.push = .waiting number ∨
      server.broker.queues.lookup session.agentId = some number
  sending : Quiet event → (sendingOf later.push).Sublist (sendingOf session.push)

theorem Goes.refl (server : BusServer) (event : ServerEvent) (session : Session) :
    Goes server event session session :=
  ⟨rfl, fun _ waiting => .inl waiting, fun _ => List.Sublist.refl _⟩

/-- A session is begun by a `subscribe`, or goes on. -/
def Continues (server : BusServer) (event : ServerEvent) (connection : Nat) (later : Session) :
    Prop :=
  (server.sessions.lookup connection = none ∧ later.push = .ready ∧
    ∃ workflowId tenant, event = .receive connection
      (.subscribe later.agentId workflowId (some tenant))) ∨
  ∃ session, server.sessions.lookup connection = some session ∧ Goes server event session later

theorem continues_of_same {event : ServerEvent} {connection : Nat} {later : Session}
    (found : server.sessions.lookup connection = some later) :
    server.Continues event connection later :=
  .inr ⟨later, found, Goes.refl server event later⟩

theorem continues_setPush {event : ServerEvent} {connection other : Nat} {session later : Session}
    {push : PushLoop} (found : server.sessions.lookup connection = some session)
    (after : (server.sessions.assign connection { session with push }).lookup other = some later)
    (goes : Goes server event session { session with push }) :
    server.Continues event other later := by
  rw [OrderedDict.lookup_assign] at after
  split at after
  · rename_i same
    subst same
    cases after
    exact .inr ⟨session, found, goes⟩
  · exact continues_of_same after

theorem sendingOf_afterSend (message : WorkflowMessage) (outcome : SendOutcome) :
    sendingOf (afterSend message outcome) = if outcome = .suspended then [message] else [] := by
  cases outcome <;> rfl

theorem afterSend_ne_waiting (message : WorkflowMessage) (outcome : SendOutcome) (number : Nat) :
    afterSend message outcome ≠ .waiting number := by
  cases outcome <;> nofun

theorem continues_step {event : ServerEvent} {connection : Nat} {later : Session}
    (after : (server.step event).sessions.lookup connection = some later) :
    server.Continues event connection later := by
  cases event with
  | receive other envelope =>
      unfold BusServer.step handleConnection at after
      dsimp only at after
      cases found : server.sessions.lookup other with
      | none =>
          rw [found] at after
          dsimp only at after
          split at after
          · rename_i agentId workflowId tenant
            dsimp only at after
            rw [OrderedDict.lookup_assign] at after
            split at after
            · rename_i same
              subst same
              cases after
              exact .inl ⟨found, rfl, workflowId, tenant, rfl⟩
            · exact continues_of_same after
          · exact continues_of_same after
      | some session =>
          rw [found] at after
          dsimp only at after
          split at after
          · unfold handleEnvelope at after
            cases envelope with
            | message message freshAck => exact continues_of_same after
            | ack messageId =>
                dsimp only at after
                split at after
                · exact continues_of_same after
                · exact continues_of_same after
            | subscribe agentId workflowId principal =>
                dsimp only at after
                split at after
                · exact continues_of_same after
                · exact continues_of_same after
            | other => exact continues_of_same after
          · exact continues_of_same after
  | disconnect other =>
      unfold BusServer.step disconnect at after
      dsimp only at after
      split at after
      · exact continues_of_same after
      · rename_i session found
        split at after
        · have assigned : (server.sessions.assign other (closed session)).lookup connection =
              some later := by
            split at after
            · exact after
            · exact after
          rw [OrderedDict.lookup_assign] at assigned
          split at assigned
          · rename_i same
            subst same
            cases assigned
            refine .inr ⟨session, found, ?_⟩
            unfold closed
            split
            · exact ⟨rfl, fun _ waiting => .inl waiting, fun _ => List.Sublist.refl _⟩
            · exact ⟨rfl, nofun, fun _ => List.nil_sublist _⟩
          · exact continues_of_same assigned
        · exact continues_of_same after
  | publish message freshAck => exact continues_of_same after
  | pushWait other =>
      unfold BusServer.step pushWait at after
      dsimp only at after
      split at after
      · exact continues_of_same after
      · rename_i session found
        split at after
        · split at after
          · exact continues_of_same after
          · rename_i number queue
            refine continues_setPush found after ⟨rfl, ?_, fun _ => List.nil_sublist _⟩
            rintro _ ⟨⟩
            exact .inr queue
        · exact continues_of_same after
  | pushTimeout other =>
      unfold BusServer.step pushTimeout at after
      dsimp only at after
      split at after
      · exact continues_of_same after
      · rename_i session found
        split at after
        · exact continues_setPush found after ⟨rfl, nofun, fun _ => List.nil_sublist _⟩
        · exact continues_of_same after
  | pushTake other outcome =>
      unfold BusServer.step pushTake at after
      dsimp only at after
      split at after
      · exact continues_of_same after
      · rename_i session message broker taken
        obtain ⟨found, -⟩ := pushTaken_eq_some taken
        exact continues_setPush found after
          ⟨rfl, fun number waiting => absurd waiting (afterSend_ne_waiting message outcome number),
            False.elim⟩
  | pushResume other outcome =>
      unfold BusServer.step pushResume at after
      dsimp only at after
      split at after
      · exact continues_of_same after
      · rename_i session found
        split at after
        · rename_i message _
          exact continues_setPush found after
            ⟨rfl, fun number waiting => absurd waiting (afterSend_ne_waiting message outcome number),
              False.elim⟩
        · exact continues_of_same after

/-- No push loop waits for an object that is newer than the one of its agent. -/
structure Paced (server : BusServer) : Prop where
  tidy : Tidy server.broker
  latest : server.broker.Latest
  waits : ∀ connection session number, server.sessions.lookup connection = some session →
    session.push = .waiting number → number < server.broker.queuesMade ∧
      ∀ current, server.broker.queues.lookup session.agentId = some current → number ≤ current

theorem paced_step (paced : server.Paced) (event : ServerEvent) : (server.step event).Paced := by
  have moves := moves_step paced.tidy paced.latest event
  refine ⟨moves.tidy, moves.latest, fun connection later number after waiting => ?_⟩
  have bounds {session : Session} {number : Nat}
      (small : number < server.broker.queuesMade)
      (before : ∀ current, server.broker.queues.lookup session.agentId = some current →
        number ≤ current) :
      number < (server.step event).broker.queuesMade ∧
        ∀ current, (server.step event).broker.queues.lookup session.agentId = some current →
          number ≤ current := by
    refine ⟨Nat.lt_of_lt_of_le small moves.made, fun current found => ?_⟩
    rcases moves.queues session.agentId current found with old | new
    · exact before current old
    · exact Nat.le_trans (Nat.le_of_lt small) new
  rcases continues_step after with ⟨-, ready, -⟩ | ⟨session, found, goes⟩
  · rw [ready] at waiting
    cases waiting
  · rw [goes.agentId]
    rcases goes.waits number waiting with old | queue
    · obtain ⟨small, before⟩ := paced.waits connection session number found old
      exact bounds small before
    · refine bounds (paced.tidy.numbers _ _ queue) fun current same => ?_
      cases queue.symm.trans same
      exact Nat.le_refl _

end BusServer

end YouMi.Bus
