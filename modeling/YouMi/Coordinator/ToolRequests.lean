import YouMi.Coordinator.Handoff
import YouMi.Bus.BrokerLaws

/-!
# The messages the system builds

Delegated tasks, tool requests, the answers of a master and the results of delegated
tasks, published while agents subscribe, read and leave.  All agents are of one
tenant and subscribe under it.  A message names its sender's tenant only if whoever
builds it says so.
-/

namespace YouMi.Coordinator

open YouMi.Core YouMi.Bus YouMi.Library YouMi.Python InProcessBroker

/-- How a master answers a tool request: it waits for a person, or has decided. -/
inductive ToolDecision where
  | manualReview
  | decided (approved : Bool)

def ToolDecision.metadata : ToolDecision → Dict
  | .manualReview => [("approved", .bool false), ("pending_manual_review", .bool true)]
  | .decided approved => [("approved", .bool approved)]

/-- What `_handle_tool_request` publishes; the content is the JSON text of the decision. -/
def toolResponseMessage (master : BusAgent) (request : WorkflowMessage)
    (decision : ToolDecision) (content messageId : String) : WorkflowMessage :=
  { messageId
    workflowId := request.workflowId
    fromAgentId := master.agentId
    toAgentId := some request.fromAgentId
    msgType := .toolResponse
    content
    metadata := decision.metadata }

/-- What agents and masters do on the bus. -/
inductive TrafficEvent where
  /-- An agent subscribes under the tenant. -/
  | join (agent : BusAgent)
  | leave (agentId : String)
  | createWorkflow
  /-- `_start_tool_request_listener`, up to its loop. -/
  | startListener (master : BusAgent)
  /-- `_execute_delegation`, up to its wait. -/
  | delegate (self : BusAgent) (payload : DelegationPayload) (messageId freshAck : String)
  /-- `request_tool`, up to its wait. -/
  | requestTool (self : BusAgent) (requestPayload messageId freshAck : String)
  /-- `_handle_tool_request`, with what it decides. -/
  | answerRequest (master : BusAgent) (request : WorkflowMessage) (decision : ToolDecision)
      (content messageId freshAck : String)
  /-- `receive_and_process`, from the end of the run on. -/
  | sendResult (self : BusAgent) (workflowId : String) (task : WorkflowMessage)
      (outcome : Except Fault Core.TaskResult) (messageId freshAck : String)
  | waitForMessage (agentId : String)
  | wake (place : Nat)
  | giveUp (place : Nat)
  | pendingMessages (agentId : String)

section Traffic

variable (format : String → String → Except Fault String) (typeName : Fault → String)

/-- The message an event publishes, with the `ack_id` it may be given. -/
def TrafficEvent.built : TrafficEvent → Option (WorkflowMessage × String)
  | .delegate self payload messageId freshAck =>
      match beginDelegation format self payload messageId with
      | .published message => some (message, freshAck)
      | _ => none
  | .requestTool self requestPayload messageId freshAck =>
      if self.connected then some (toolRequestMessage self requestPayload messageId, freshAck)
      else none
  | .answerRequest master request decision content messageId freshAck =>
      some (toolResponseMessage master request decision content messageId, freshAck)
  | .sendResult self workflowId task outcome messageId freshAck =>
      (feedbackMessage workflowId typeName self task messageId outcome).map fun message =>
        (message, freshAck)
  | _ => none

/-- Whether the agent is subscribed. -/
def Subscribed (bus : BusState) (agentId : String) : Prop :=
  bus.broker.queues.lookup agentId ≠ none

instance (bus : BusState) (agentId : String) : Decidable (Subscribed bus agentId) := by
  unfold Subscribed
  infer_instance

/-- A message is published by a subscribed agent. -/
def publication (bus : BusState) : Option (WorkflowMessage × String) → Option BusEvent
  | some (message, freshAck) =>
      if Subscribed bus message.fromAgentId then some (.publish message freshAck) else none
  | none => none

/-- What an event of a tenant's agents does on the bus: only subscribed agents publish, and
only a subscribed master starts to listen. -/
def TrafficEvent.busEvent (tenant : String) (bus : BusState) (event : TrafficEvent) :
    Option BusEvent :=
  match event with
  | .join agent => some (.subscribe agent.agentId agent.workflowId tenant)
  | .leave agentId => some (.unsubscribe agentId)
  | .createWorkflow => some .createWorkflow
  | .startListener master =>
      if master.connected ∧ Subscribed bus master.agentId then
        some (.subscribe master.agentId master.workflowId "default")
      else none
  | .waitForMessage agentId => some (.waitForMessage agentId)
  | .wake place => some (.wake place)
  | .giveUp place => some (.giveUp place)
  | .pendingMessages agentId => some (.pendingMessages agentId)
  | event => publication bus (event.built format typeName)

def trafficStep (tenant : String) (bus : BusState) (event : TrafficEvent) : BusState :=
  match event.busEvent format typeName tenant bus with
  | some busEvent => bus.step busEvent
  | none => bus

end Traffic

/-! ## Tenants -/

/-- Everybody is subscribed under the tenant. -/
def Under (tenant : String) (bus : BusState) : Prop :=
  ∀ agentId given, bus.broker.agentTenants.lookup agentId = some given →
    given = tenantOrDefault tenant

/-- The message is for the subscribed agent: a broadcast that goes to it, or one addressed
to it. -/
def IsFor (bus : BusState) (message : WorkflowMessage) (agentId : String) : Prop :=
  Subscribed bus agentId ∧
    if message.isBroadcast then agentId ∈ bus.broker.candidates message
    else message.toAgentId = some agentId

/-- The message carries its sender's tenant, and is put into the queue of everybody it is for. -/
structure Delivered (bus : BusState) (message : WorkflowMessage) (freshAck : String) :
    Prop where
  tenant : bus.broker.agentTenants.lookup message.fromAgentId = some message.tenant
  queued : ∀ agentId, IsFor bus message agentId →
    (bus.broker.publish message freshAck).queueOf agentId =
      bus.broker.queueOf agentId ++ [message.stamp freshAck]

section Traffic

variable (format : String → String → Except Fault String) (typeName : Fault → String)
  (tenant : String)

/-- A listener that starts keeps the tenant of its master, and a message that is built is
delivered. -/
structure Reaches (bus : BusState) (event : TrafficEvent) : Prop where
  listener : ∀ master, event = .startListener master → Subscribed bus master.agentId →
    (trafficStep format typeName tenant bus event).broker.agentTenants.lookup master.agentId =
      bus.broker.agentTenants.lookup master.agentId
  built : ∀ message freshAck, event.built format typeName = some (message, freshAck) →
    Subscribed bus message.fromAgentId → Delivered bus message freshAck

/-- Listeners start and messages are built in the default tenant only, and no message is
addressed to an agent without a name. -/
structure InDefaultTenant (bus : BusState) (event : TrafficEvent) : Prop where
  listener : ∀ master, event = .startListener master → master.connected = true →
    Subscribed bus master.agentId → tenantOrDefault tenant = "default"
  built : ∀ message freshAck, event.built format typeName = some (message, freshAck) →
    Subscribed bus message.fromAgentId →
      tenantOrDefault tenant = "default" ∧ (message.toAgentId = some "" → ¬Subscribed bus "")

end Traffic

variable {format : String → String → Except Fault String} {typeName : Fault → String}
  {tenant : String} {bus : BusState} {event : TrafficEvent} {message : WorkflowMessage}
  {freshAck : String}

/-- Whoever builds a message leaves its tenant at the default. -/
theorem tenant_of_built (built : event.built format typeName = some (message, freshAck)) :
    message.tenant = "default" := by
  cases event with
  | delegate self payload messageId fresh =>
      unfold TrafficEvent.built at built
      dsimp only at built
      split at built
      · rename_i published
        obtain ⟨_, _, _, task, _, same⟩ := beginDelegation_published published
        obtain ⟨rfl, -⟩ := Prod.mk.inj (Option.some.inj built)
        rw [same]
      · cases built
  | requestTool self requestPayload messageId fresh =>
      unfold TrafficEvent.built at built
      dsimp only at built
      split at built
      · obtain ⟨rfl, -⟩ := Prod.mk.inj (Option.some.inj built)
        rfl
      · cases built
  | answerRequest master request decision content messageId fresh =>
      obtain ⟨rfl, -⟩ := Prod.mk.inj (Option.some.inj built)
      rfl
  | sendResult self workflowId task outcome messageId fresh =>
      obtain ⟨reply, replied, same⟩ := Option.map_eq_some_iff.mp built
      obtain ⟨rfl, -⟩ := Prod.mk.inj same
      exact (header_feedbackMessage replied).2
  | _ => cases built

theorem publication_eq_some {given : Option (WorkflowMessage × String)} {busEvent : BusEvent}
    (happens : publication bus given = some busEvent) :
    ∃ message freshAck, busEvent = .publish message freshAck := by
  unfold publication at happens
  split at happens
  · split at happens
    · exact ⟨_, _, (Option.some.inj happens).symm⟩
    · cases happens
  · cases happens

theorem under_step {busEvent : BusEvent} (under : Under tenant bus)
    (joins : ∀ agentId workflowId given, busEvent = .subscribe agentId workflowId given →
      tenantOrDefault given = tenantOrDefault tenant) :
    Under tenant (bus.step busEvent) := by
  intro agentId found lookup
  rcases agentTenants_step lookup with ⟨workflowId, given, joined, rfl⟩ | before
  · exact joins agentId workflowId given joined
  · exact under agentId found before

/-- Under one tenant the default, what is published from the default tenant is delivered. -/
theorem delivered_of_default (tidy : Tidy bus.broker) (under : Under tenant bus)
    (default_tenant : tenantOrDefault tenant = "default") (built : message.tenant = "default")
    (sender : Subscribed bus message.fromAgentId)
    (named : message.toAgentId = some "" → ¬Subscribed bus "") :
    Delivered bus message freshAck := by
  have tenant_of : ∀ agentId, Subscribed bus agentId →
      bus.broker.agentTenants.lookup agentId = some "default" := by
    intro agentId subscribed
    obtain ⟨given, there⟩ := tidy.exists_tenant subscribed
    rw [there, under agentId given there, default_tenant]
  refine ⟨?_, ?_⟩
  · rw [tenant_of _ sender, built]
  · rintro agentId ⟨subscribed, addressed⟩
    have candidate : agentId ∈ bus.broker.candidates message := by
      split at addressed
      · exact addressed
      · rename_i direct
        have has_name : agentId ≠ "" := by
          rintro rfl
          exact named addressed subscribed
        unfold candidates
        rw [if_neg direct, addressed]
        dsimp only
        rw [if_pos has_name]
        exact List.mem_cons_self
    have target : agentId ∈ bus.broker.resolveTargets message := by
      refine mem_resolveTargets.mpr ⟨candidate, ?_⟩
      unfold tenantOf
      rw [tenant_of agentId subscribed, built]
      rfl
    rw [queueOf_publish tidy, if_pos ⟨target, subscribed⟩]

/-- Nothing is put into the queue of an agent without a name that is addressed. -/
theorem nameless_gets_nothing (tidy : Tidy bus.broker) (addressed : message.toAgentId = some "")
    (delivered : Delivered bus message freshAck) : ¬Subscribed bus "" := by
  intro subscribed
  have direct : message.isBroadcast = false := by
    unfold WorkflowMessage.isBroadcast
    rw [addressed]
    rfl
  have queued := delivered.queued "" ⟨subscribed, by rw [if_neg (by simp [direct])]; exact addressed⟩
  have no_target : "" ∉ bus.broker.resolveTargets message := by
    intro target
    have candidate := (mem_resolveTargets.mp target).1
    unfold candidates at candidate
    rw [if_neg (by simp [direct]), addressed] at candidate
    cases candidate
  rw [queueOf_publish tidy, if_neg fun both => no_target both.1] at queued
  simp at queued

/-- Only an agent that joins and a listener that starts subscribe. -/
theorem subscribe_of_busEvent {agentId workflowId given : String}
    (happens : event.busEvent format typeName tenant bus =
      some (.subscribe agentId workflowId given)) :
    given = tenant ∨ ∃ master, event = .startListener master ∧ master.connected = true ∧
      Subscribed bus master.agentId ∧ given = "default" := by
  cases event with
  | join agent =>
      obtain ⟨_, _, same⟩ := BusEvent.subscribe.inj (Option.some.inj happens)
      exact .inl same.symm
  | startListener master =>
      unfold TrafficEvent.busEvent at happens
      dsimp only at happens
      split at happens
      · rename_i both
        obtain ⟨_, _, same⟩ := BusEvent.subscribe.inj (Option.some.inj happens)
        exact .inr ⟨master, rfl, both.1, both.2, same.symm⟩
      · cases happens
  | leave agentId => cases Option.some.inj happens
  | createWorkflow => cases Option.some.inj happens
  | waitForMessage agentId => cases Option.some.inj happens
  | wake place => cases Option.some.inj happens
  | giveUp place => cases Option.some.inj happens
  | pendingMessages agentId => cases Option.some.inj happens
  | delegate self payload messageId fresh =>
      obtain ⟨_, _, same⟩ := publication_eq_some happens
      cases same
  | requestTool self requestPayload messageId fresh =>
      obtain ⟨_, _, same⟩ := publication_eq_some happens
      cases same
  | answerRequest master request decision content messageId fresh =>
      have published : publication bus
          (some (toolResponseMessage master request decision content messageId, fresh)) =
          some (.subscribe agentId workflowId given) := happens
      obtain ⟨_, _, same⟩ := publication_eq_some published
      cases same
  | sendResult self workflowId task outcome messageId fresh =>
      obtain ⟨_, _, same⟩ := publication_eq_some happens
      cases same

theorem tidy_trafficStep (bus : BusState) (event : TrafficEvent) (tidy : Tidy bus.broker) :
    Tidy (trafficStep format typeName tenant bus event).broker := by
  unfold trafficStep
  split
  · exact tidy_step bus _ tidy
  · exact tidy

/-- A listener that starts moves its master to the default tenant. -/
theorem tenant_after_startListener {master : BusAgent} (connected : master.connected = true)
    (subscribed : Subscribed bus master.agentId) :
    (trafficStep format typeName tenant bus
      (.startListener master)).broker.agentTenants.lookup master.agentId = some "default" := by
  have starts : (TrafficEvent.startListener master).busEvent format typeName tenant bus =
      some (.subscribe master.agentId master.workflowId "default") :=
    if_pos ⟨connected, subscribed⟩
  unfold trafficStep
  rw [starts]
  refine (agentTenants_subscribe ..).trans ?_
  rw [if_pos rfl]
  rfl

theorem inDefaultTenant_of_reaches (tidy : Tidy bus.broker) (under : Under tenant bus)
    (reaches : Reaches format typeName tenant bus event) :
    InDefaultTenant format typeName tenant bus event where
  listener := by
    rintro master rfl connected subscribed
    obtain ⟨given, there⟩ := tidy.exists_tenant subscribed
    have kept := reaches.listener master rfl subscribed
    rw [tenant_after_startListener connected subscribed, there] at kept
    rw [← under master.agentId given there, Option.some.inj kept]
  built message freshAck built sender := by
    have delivered := reaches.built message freshAck built sender
    have carried := delivered.tenant
    rw [tenant_of_built built] at carried
    exact ⟨(under _ _ carried).symm,
      fun addressed => nameless_gets_nothing tidy addressed delivered⟩

theorem under_trafficStep (under : Under tenant bus)
    (settled : InDefaultTenant format typeName tenant bus event) :
    Under tenant (trafficStep format typeName tenant bus event) := by
  unfold trafficStep
  split
  · rename_i busEvent happens
    refine under_step under ?_
    rintro agentId workflowId given rfl
    rcases subscribe_of_busEvent happens with rfl | ⟨master, rfl, connected, subscribed, rfl⟩
    · rfl
    · rw [settled.listener master rfl connected subscribed]
      rfl
  · exact under

theorem reaches_of_inDefaultTenant (tidy : Tidy bus.broker) (under : Under tenant bus)
    (settled : InDefaultTenant format typeName tenant bus event) :
    Reaches format typeName tenant bus event where
  listener := by
    rintro master rfl subscribed
    by_cases connected : master.connected = true
    · obtain ⟨given, there⟩ := tidy.exists_tenant subscribed
      rw [tenant_after_startListener connected subscribed, there,
        under master.agentId given there, settled.listener master rfl connected subscribed]
    · have silent : (TrafficEvent.startListener master).busEvent format typeName tenant bus =
          none := if_neg fun both => connected both.1
      unfold trafficStep
      rw [silent]
  built message freshAck built sender := by
    obtain ⟨default_tenant, named⟩ := settled.built message freshAck built sender
    exact delivered_of_default tidy under default_tenant (tenant_of_built built) sender named

/-- A step keeps the tenant, and what it builds arrives, exactly if it is in the default one. -/
theorem reaches_iff (tidy : Tidy bus.broker) (under : Under tenant bus) (event : TrafficEvent) :
    Under tenant (trafficStep format typeName tenant bus event) ∧
        Reaches format typeName tenant bus event ↔
      InDefaultTenant format typeName tenant bus event := by
  constructor
  · rintro ⟨-, reaches⟩
    exact inDefaultTenant_of_reaches tidy under reaches
  · intro settled
    exact ⟨under_trafficStep under settled, reaches_of_inDefaultTenant tidy under settled⟩

/--
For the agents of a tenant, in every run from an empty broker: listeners keep
their masters' tenant and every message the system builds is delivered, exactly
if each is started or built in the default tenant.
-/
theorem traffic_reaches_iff (format : String → String → Except Fault String)
    (typeName : Fault → String) (tenant : String) (events : List TrafficEvent) :
    Throughout (trafficStep format typeName tenant) (Under tenant) {} events ∧
        StepsMeet (trafficStep format typeName tenant) (Reaches format typeName tenant) {} events ↔
      StepsMeet (trafficStep format typeName tenant) (InDefaultTenant format typeName tenant) {}
        events := by
  have init : Under tenant {} := fun agentId given found => by cases found
  exact throughout_and_stepsMeet_iff (fun bus => Tidy bus.broker) (Under tenant)
    tidy_trafficStep (fun _ event tidy under => reaches_iff tidy under event)
    tidy_empty init events

/-- A task delegated between two agents of another tenant never arrives. -/
theorem delegation_dropped_outside_default :
    ¬StepsMeet (trafficStep (fun template _ => .ok template) (fun _ => "") "t1")
      (Reaches (fun template _ => .ok template) (fun _ => "") "t1") {}
      [.join { agentId := "a" }, .join { agentId := "b" },
        .delegate { agentId := "a" } { targetAgentId := "b" } "1" "k"] := by
  rintro ⟨-, -, reaches, -⟩
  have delivered := reaches.built _ _ rfl (by decide)
  have arrives := delivered.queued "b" ⟨by decide, rfl⟩
  exact absurd (congrArg List.length arrives) (by decide)

end YouMi.Coordinator
