import YouMi.Bus.BrokerLaws

/-!
# Delivery in order

What an agent reads, through either read operation, is a first part of what was
published for it, in the order of publication.  `Registry` says who is subscribed
under which tenant and takes part in which workflow without a word on queues; the
tables of the broker follow it, and the messages for an agent are named by it.
-/

namespace YouMi.Bus

open YouMi.Library InProcessBroker

structure Registry where
  /-- `none`: not subscribed. -/
  tenant : String → Option String := fun _ => none
  member : String → String → Bool := fun _ _ => false
  created : Nat := 0

namespace Registry

def step (registry : Registry) : BusEvent → Registry
  | .subscribe agentId workflowId tenant =>
      { registry with
        tenant := fun agent =>
          if agent = agentId then some (tenantOrDefault tenant) else registry.tenant agent
        member := fun workflow agent =>
          decide (workflow = workflowId ∧ workflowId ≠ "" ∧ agent = agentId) ||
            registry.member workflow agent }
  | .unsubscribe agentId =>
      { registry with
        tenant := fun agent => if agent = agentId then none else registry.tenant agent
        member := fun workflow agent =>
          decide (agent ≠ agentId) && registry.member workflow agent }
  | .createWorkflow =>
      { registry with
        member := fun workflow agent =>
          decide (workflow ≠ workflowName (registry.created + 1)) &&
            registry.member workflow agent
        created := registry.created + 1 }
  | _ => registry

/-- The message is for the agent: it has the agent's tenant, and it is addressed to the
agent or it is another agent's broadcast to all or to a workflow of the agent. -/
def Concerns (registry : Registry) (agent : String) (message : WorkflowMessage) : Prop :=
  registry.tenant agent = some message.tenant ∧
    if message.isBroadcast then
      message.fromAgentId ≠ agent ∧
        (message.workflowId = "" ∨ registry.member message.workflowId agent = true)
    else message.toAgentId = some agent

instance (registry : Registry) (agent : String) (message : WorkflowMessage) :
    Decidable (registry.Concerns agent message) := by
  unfold Concerns
  infer_instance

/-- The publications for an agent, with the `ack_id` each may be given. -/
def due (agent : String) (registry : Registry) : BusEvent → List (WorkflowMessage × String)
  | .publish message freshAck =>
      if registry.Concerns agent message then [(message, freshAck)] else []
  | _ => []

end Registry

namespace InProcessBroker

/-- What the tables of the broker say. -/
def registry (broker : InProcessBroker) : Registry where
  tenant := fun agent => broker.agentTenants.lookup agent
  member := fun workflow agent => decide (agent ∈ broker.membersOf workflow)
  created := broker.workflowCounter

variable {broker after : InProcessBroker}

theorem SameTables.registry (same : SameTables broker after) :
    after.registry = broker.registry := by
  unfold InProcessBroker.registry
  rw [same.agentTenants, same.workflowCounter]
  simp only [same.membersOf]

end InProcessBroker

/-- The tables of the broker follow the registry. -/
theorem registry_step (bus : BusState) (event : BusEvent) (tidy : Tidy bus.broker) :
    (bus.step event).broker.registry = bus.broker.registry.step event := by
  cases event with
  | subscribe agentId workflowId tenant =>
      unfold BusState.step registry Registry.step
      dsimp only
      congr 1
      · funext agent
        exact agentTenants_subscribe ..
      · funext workflow agent
        rw [membersOf_subscribe]
        by_cases joins : workflow = workflowId ∧ workflowId ≠ ""
        · obtain ⟨rfl, named⟩ := joins
          simp [named]
        · rw [if_neg joins]
          have other : ¬(workflow = workflowId ∧ workflowId ≠ "" ∧ agent = agentId) :=
            fun all => joins ⟨all.1, all.2.1⟩
          rw [decide_eq_false other, Bool.false_or]
      · exact workflowCounter_subscribe ..
  | unsubscribe agentId =>
      unfold BusState.step registry Registry.step
      dsimp only
      congr 1
      · funext agent
        exact OrderedDict.lookup_erase
      · funext workflow agent
        rw [membersOf_unsubscribe tidy]
        simp [and_comm]
  | createWorkflow =>
      unfold BusState.step registry Registry.step
      dsimp only
      congr 1
      funext workflow agent
      rw [membersOf_createWorkflow]
      split
      · rename_i same
        simp [same]
      · rename_i other
        simp [other]
  | publish message freshAck => exact (sameTables_publish bus.broker message freshAck).registry
  | waitForMessage agentId =>
      exact congrArg InProcessBroker.registry (broker_waitForMessage bus agentId)
  | wake place => exact (sameTables_wake bus place).registry
  | giveUp place => rfl
  | pendingMessages agentId => exact (sameTables_pendingMessages bus.broker agentId).registry
  | ack agentId messageId => rfl

/-- After every run the tables of the broker are those of the registry. -/
theorem run_registry (events : List BusEvent) :
    (run BusState.step {} events).broker.registry = run Registry.step {} events :=
  run_simulates BusState.step (fun bus : BusState => bus.broker.registry) (fun bus => Tidy bus.broker)
    tidy_step registry_step tidy_empty events

/-! ## One agent's queue -/

/-- What an event hands over to one agent. -/
def receivedBy (agent : String) (bus : BusState) (event : BusEvent) : List WorkflowMessage :=
  ((bus.received event).filter fun handed => handed.1 = agent).map Prod.snd

/-- What an event puts into the queue of one agent. -/
def arrivals (agent : String) (bus : BusState) : BusEvent → List WorkflowMessage
  | .publish message freshAck =>
      if agent ∈ bus.broker.resolveTargets message ∧ bus.broker.queues.lookup agent ≠ none then
        [message.stamp freshAck]
      else []
  | _ => []

/-- Whoever reads in the name of the agent holds the queue object it is subscribed with. -/
structure Attached (agent : String) (bus : BusState) : Prop where
  tidy : Tidy bus.broker
  readers : ∀ number, (agent, number) ∈ bus.readers →
    bus.broker.queues.lookup agent = some number

/-- The event does not end the subscription of the agent. -/
def Keeps (agent : String) (_ : BusState) (event : BusEvent) : Prop :=
  event ≠ .unsubscribe agent

variable {agent : String} {bus : BusState}

/-- A queue object that is found stays the agent's until it unsubscribes. -/
theorem lookup_step {number : Nat} {event : BusEvent} (keeps : Keeps agent bus event)
    (found : bus.broker.queues.lookup agent = some number) :
    (bus.step event).broker.queues.lookup agent = some number := by
  cases event with
  | subscribe agentId workflowId tenant =>
      refine (queues_subscribe ..).trans ?_
      split
      · rename_i fresh
        rw [← fresh.1, found] at fresh
        cases fresh.2
      · exact found
  | unsubscribe agentId =>
      have ne : agent ≠ agentId := fun same => keeps (same ▸ rfl)
      exact (OrderedDict.lookup_erase_ne ne).trans found
  | createWorkflow => exact found
  | publish message freshAck =>
      unfold BusState.step
      rw [(sameTables_publish bus.broker message freshAck).queues]
      exact found
  | waitForMessage agentId =>
      rw [broker_waitForMessage]
      exact found
  | wake place =>
      rw [(sameTables_wake bus place).queues]
      exact found
  | giveUp place => exact found
  | pendingMessages agentId =>
      unfold BusState.step
      rw [(sameTables_pendingMessages bus.broker agentId).queues]
      exact found
  | ack agentId messageId => exact found

theorem attached_step {event : BusEvent} (attached : Attached agent bus)
    (keeps : Keeps agent bus event) : Attached agent (bus.step event) where
  tidy := tidy_step bus event attached.tidy
  readers number member := by
    rcases mem_readers_step member with before | now
    · exact lookup_step keeps (attached.readers number before)
    · exact lookup_step keeps now

theorem wake_flows (attached : Attached agent bus) (place : Nat) :
    Flows BusState.step (fun bus => bus.broker.queueOf agent) (arrivals agent)
      (receivedBy agent) bus (.wake place) := by
  unfold Flows receivedBy arrivals
  dsimp only
  rcases wake_cases bus place with
    ⟨idle, nothing⟩ | ⟨owner, number, message, broker, reading, taken, woken, handed⟩
  · rw [idle, nothing]
    simp
  · rw [woken, handed]
    obtain ⟨first, others⟩ := held_takeFirst taken
    by_cases own : owner = agent
    · subst own
      have found := attached.readers number (List.mem_of_getElem? reading)
      have found_after : broker.queues.lookup owner = some number := by
        rw [(sameTables_takeFirst taken).queues]
        exact found
      rw [queueOf_of_lookup found, queueOf_of_lookup found_after, first]
      simp
    · have untouched : broker.queueOf agent = bus.broker.queueOf agent :=
        queueOf_congr (sameTables_takeFirst taken) fun n =>
          others agent n fun both => own both.1.symm
      simp [own, untouched]

theorem pendingMessages_flows (agentId : String) :
    Flows BusState.step (fun bus => bus.broker.queueOf agent) (arrivals agent)
      (receivedBy agent) bus (.pendingMessages agentId) := by
  unfold Flows receivedBy BusState.received BusState.step arrivals
  dsimp only
  rw [pendingMessages_fst]
  by_cases own : agentId = agent
  · subst own
    have emptied : (bus.broker.pendingMessages agentId).2.queueOf agentId = [] := by
      unfold queueOf
      rw [(sameTables_pendingMessages ..).queues]
      split
      · rfl
      · rename_i found
        rw [held_pendingMessages, if_pos ⟨rfl, found⟩]
    rw [emptied]
    simp [List.filter_map, Function.comp_def]
  · have untouched : (bus.broker.pendingMessages agentId).2.queueOf agent =
        bus.broker.queueOf agent := by
      refine queueOf_congr (sameTables_pendingMessages ..) fun n => ?_
      rw [held_pendingMessages, if_neg fun both => own both.1.symm]
    rw [untouched]
    simp [List.filter_map, Function.comp_def, own]

/-- The queue of the agent is a mailbox: arrivals go to its back, reads take its front. -/
theorem queue_flows {event : BusEvent} (attached : Attached agent bus)
    (keeps : Keeps agent bus event) :
    Flows BusState.step (fun bus => bus.broker.queueOf agent) (arrivals agent)
      (receivedBy agent) bus event := by
  have still (same_queue : (bus.step event).broker.queueOf agent = bus.broker.queueOf agent)
      (nothing_in : arrivals agent bus event = [])
      (nothing_out : receivedBy agent bus event = []) :
      Flows BusState.step (fun bus => bus.broker.queueOf agent) (arrivals agent)
        (receivedBy agent) bus event := by
    unfold Flows
    dsimp only
    rw [nothing_in, nothing_out, same_queue, List.append_nil, List.nil_append]
  cases event with
  | subscribe agentId workflowId tenant =>
      exact still (queueOf_subscribe attached.tidy ..) rfl rfl
  | unsubscribe agentId =>
      have ne : agent ≠ agentId := fun same => keeps (same ▸ rfl)
      exact still (queueOf_unsubscribe_ne _ ne) rfl rfl
  | createWorkflow => exact still rfl rfl rfl
  | publish message freshAck =>
      exact (queueOf_publish attached.tidy message freshAck agent).symm
  | waitForMessage agentId =>
      exact still (congrArg (·.queueOf agent) (broker_waitForMessage bus agentId)) rfl rfl
  | wake place => exact wake_flows attached place
  | giveUp place => exact still rfl rfl rfl
  | pendingMessages agentId => exact pendingMessages_flows agentId
  | ack agentId messageId => exact still rfl rfl rfl

/-! ## What arrives -/

theorem mem_candidates_iff {broker : InProcessBroker} {message : WorkflowMessage}
    (named : agent ≠ "") (subscribed : broker.queues.lookup agent ≠ none) :
    agent ∈ broker.candidates message ↔
      if message.isBroadcast then
        message.fromAgentId ≠ agent ∧
          (message.workflowId = "" ∨ agent ∈ broker.membersOf message.workflowId)
      else message.toAgentId = some agent := by
  have key : agent ∈ broker.queues.keys := mem_queueKeys_iff.mpr subscribed
  have sender : ¬agent = message.fromAgentId ↔ ¬message.fromAgentId = agent :=
    not_congr eq_comm
  unfold candidates
  cases message.isBroadcast with
  | true =>
      by_cases workflow : message.workflowId = ""
      · rw [if_pos rfl, if_neg (not_not_intro workflow), List.mem_filter]
        simp [workflow, key, sender]
      · rw [if_pos rfl, if_pos workflow, List.mem_filter]
        simp [workflow, sender, and_comm]
  | false =>
      cases message.toAgentId with
      | none => simp
      | some addressee =>
          by_cases empty : addressee = ""
          · simp [empty, Ne.symm named]
          · simp [empty, eq_comm]

/-- For an agent with a name that is subscribed, the targets of a message are the agents
it concerns. -/
theorem target_iff_concerns {broker : InProcessBroker} (tidy : Tidy broker) (named : agent ≠ "")
    (message : WorkflowMessage) :
    agent ∈ broker.resolveTargets message ∧ broker.queues.lookup agent ≠ none ↔
      broker.registry.Concerns agent message := by
  cases found : broker.agentTenants.lookup agent with
  | none => simp [tidy.no_queue found, Registry.Concerns, registry, found]
  | some tenant =>
      have both := tidy.tenants agent
      rw [found] at both
      have subscribed : broker.queues.lookup agent ≠ none := by
        intro missing
        rw [missing] at both
        cases both
      rw [mem_resolveTargets, mem_candidates_iff named subscribed]
      simp [Registry.Concerns, registry, tenantOf, found, subscribed, and_comm]

theorem arrivals_eq_due (tidy : Tidy bus.broker) (named : agent ≠ "") (event : BusEvent) :
    arrivals agent bus event =
      (Registry.due agent bus.broker.registry event).map fun publication =>
        publication.1.stamp publication.2 := by
  cases event with
  | publish message freshAck =>
      unfold arrivals Registry.due
      dsimp only
      rw [if_congr (target_iff_concerns tidy named message) rfl rfl]
      split <;> rfl
  | _ => rfl

theorem attached_empty (agent : String) : Attached agent {} :=
  ⟨tidy_empty, fun _ member => absurd member List.not_mem_nil⟩

/-- What an agent has read, followed by what waits in its queue, is what was published for
it, stamped, in the order of publication. -/
theorem received_append_queue (named : agent ≠ "") {events : List BusEvent}
    (stays : .unsubscribe agent ∉ events) :
    along BusState.step (receivedBy agent) {} events ++
        (run BusState.step {} events).broker.queueOf agent =
      (along Registry.step (Registry.due agent) {} events).map fun publication =>
        publication.1.stamp publication.2 := by
  have keeps : StepsMeet BusState.step (Keeps agent) {} events :=
    stepsMeet_of_forall BusState.step {} fun event member same => stays (same ▸ member)
  have flows := stepsMeet_of_allowed BusState.step (Attached agent)
    (fun _ _ attached keeps => attached_step attached keeps)
    (fun _ _ attached keeps => queue_flows attached keeps) (attached_empty agent) keeps
  have all := conserved flows
  have agree : ∀ (bus : BusState) (event : BusEvent), Tidy bus.broker →
      arrivals agent bus event = (Registry.due agent bus.broker.registry event).map
        fun publication => publication.1.stamp publication.2 :=
    fun _ event tidy => arrivals_eq_due tidy named event
  have put : along BusState.step (arrivals agent) {} events =
      along Registry.step (fun registry event => (Registry.due agent registry event).map
        fun publication => publication.1.stamp publication.2) {} events :=
    along_simulates (fun bus : BusState => bus.broker.registry) (fun bus => Tidy bus.broker)
      tidy_step registry_step agree tidy_empty events
  rw [along_map] at put
  rw [← all, put]
  rfl

/-- Whatever the interleaving, an agent that stays subscribed reads, in order, a first part
of the publications that concern it, each with at most its `ack_id` changed. -/
theorem receives_prefix_of_due (agent : String) (named : agent ≠ "") (events : List BusEvent)
    (stays : .unsubscribe agent ∉ events) :
    (along BusState.step (receivedBy agent) {} events <+:
        (along Registry.step (Registry.due agent) {} events).map fun publication =>
          publication.1.stamp publication.2) ∧
      ∀ (message : WorkflowMessage) (freshAck : String),
        message.stamp freshAck = { message with ackId := (message.stamp freshAck).ackId } :=
  ⟨⟨_, received_append_queue named stays⟩, WorkflowMessage.stamp_content⟩

/-- An agent subscribes, gets a message and reads it while another workflow is created. -/
theorem receives_prefix_of_due_once :
    let events : List BusEvent :=
      [.subscribe "a" "" "default", .publish { messageId := "1", toAgentId := some "a" } "k",
        .createWorkflow, .waitForMessage "a", .wake 0]
    (along BusState.step (receivedBy "a") {} events <+:
        (along Registry.step (Registry.due "a") {} events).map fun publication =>
          publication.1.stamp publication.2) ∧
      ∀ (message : WorkflowMessage) (freshAck : String),
        message.stamp freshAck = { message with ackId := (message.stamp freshAck).ackId } :=
  receives_prefix_of_due "a" (by decide) _ (by simp)

/-- A message to the agent whose id is empty is dropped, and a later broadcast is read. -/
theorem nameless_agent_misses_its_message :
    let events : List BusEvent :=
      [.subscribe "" "" "default",
        .publish { messageId := "1", fromAgentId := "b", toAgentId := some "" } "",
        .publish { messageId := "2", fromAgentId := "b" } "", .pendingMessages ""]
    .unsubscribe "" ∉ events ∧
      ¬along BusState.step (receivedBy "") {} events <+:
        (along Registry.step (Registry.due "") {} events).map fun publication =>
          publication.1.stamp publication.2 := by
  intro events
  have read : along BusState.step (receivedBy "") {} events =
      [{ messageId := "2", fromAgentId := "b" }] := rfl
  have due : along Registry.step (Registry.due "") {} events =
      [({ messageId := "1", fromAgentId := "b", toAgentId := some "" }, ""),
        ({ messageId := "2", fromAgentId := "b" }, "")] := rfl
  refine ⟨by simp [events], ?_⟩
  rw [read, due]
  intro first
  have same := congrArg WorkflowMessage.messageId (List.cons_prefix_cons.mp first).1
  exact absurd same (by decide)

end YouMi.Bus
