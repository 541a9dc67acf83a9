import YouMi.Bus.BrokerLaws

/-!
# The indices of the broker

Who takes part in a workflow is kept twice, by agent and by workflow, and the queues
and the tenants are kept under the same agents.  `subscribe` and `unsubscribe` change
all the tables together.  `create_workflow` puts an empty member set under the
identifier it mints, also where agents have subscribed to that identifier before.
-/

namespace YouMi.Bus

open YouMi.Library InProcessBroker

/-- The tables of a broker say the same. -/
structure IndicesAgree (broker : InProcessBroker) : Prop where
  members : ∀ agentId workflowId,
    agentId ∈ broker.membersOf workflowId ↔ workflowId ∈ broker.subscriptionsOf agentId
  queues : ∀ agentId,
    (broker.subscriptions.lookup agentId).isSome ↔ (broker.queues.lookup agentId).isSome
  tenants : ∀ agentId,
    (broker.subscriptions.lookup agentId).isSome ↔ (broker.agentTenants.lookup agentId).isSome

/-- The identifier that `create_workflow` mints next. -/
def nextWorkflow (broker : InProcessBroker) : String := workflowName (broker.workflowCounter + 1)

/-- A workflow is created only under an identifier nobody has subscribed to. -/
def MintsUnused (bus : BusState) : BusEvent → Prop
  | .createWorkflow => ∀ agentId, nextWorkflow bus.broker ∉ bus.broker.subscriptionsOf agentId
  | _ => True

variable {broker after : InProcessBroker} {bus : BusState}

theorem indicesAgree_empty : IndicesAgree {} where
  members agentId workflowId := by
    constructor <;> intro member <;> cases member
  queues agentId := Iff.rfl
  tenants agentId := Iff.rfl

theorem IndicesAgree.of_sameTables (agree : IndicesAgree broker)
    (same : SameTables broker after) : IndicesAgree after where
  members agentId workflowId := by
    rw [same.membersOf, same.subscriptionsOf]
    exact agree.members agentId workflowId
  queues agentId := by
    rw [same.subscriptions, same.queues]
    exact agree.queues agentId
  tenants agentId := by
    rw [same.subscriptions, same.agentTenants]
    exact agree.tenants agentId

/-- Only the agent that subscribes may get a subscription entry. -/
theorem isSome_subscriptions_subscribe (broker : InProcessBroker)
    (agentId workflowId tenant agent : String) :
    ((broker.subscribe agentId workflowId tenant).subscriptions.lookup agent).isSome ↔
      agent = agentId ∨ (broker.subscriptions.lookup agent).isSome := by
  have opened : (broker.openQueue agentId).subscriptions = broker.subscriptions :=
    (openQueue_fields broker agentId).1
  unfold subscribe joinWorkflow
  by_cases same : agent = agentId
  · subst same
    split <;> simp
  · split <;> simp [OrderedDict.lookup_assign_ne same, opened, same]

theorem indicesAgree_subscribe (agree : IndicesAgree broker)
    (agentId workflowId tenant : String) :
    IndicesAgree (broker.subscribe agentId workflowId tenant) where
  members agent workflow := by
    rw [membersOf_subscribe, subscriptionsOf_subscribe]
    by_cases named : workflowId = ""
    · simp only [named, ne_eq, not_true_eq_false, and_false, ↓reduceIte]
      exact agree.members agent workflow
    · simp only [named, ne_eq, not_false_eq_true, and_true]
      by_cases sameWorkflow : workflow = workflowId
      · subst sameWorkflow
        by_cases sameAgent : agent = agentId
        · simp [sameAgent]
        · simp [sameAgent, agree.members]
      · by_cases sameAgent : agent = agentId
        · simp [sameAgent, sameWorkflow, agree.members]
        · simp [sameAgent, sameWorkflow, agree.members]
  queues agent := by
    rw [isSome_subscriptions_subscribe, queues_subscribe, agree.queues]
    by_cases same : agent = agentId
    · subst same
      cases found : broker.queues.lookup agent <;> simp
    · simp [same]
  tenants agent := by
    rw [isSome_subscriptions_subscribe, agentTenants_subscribe, agree.tenants]
    by_cases same : agent = agentId <;> simp [same]

theorem indicesAgree_unsubscribe (tidy : Tidy broker) (agree : IndicesAgree broker)
    (agentId : String) : IndicesAgree (broker.unsubscribe agentId) where
  members agent workflow := by
    have left : (broker.unsubscribe agentId).subscriptionsOf agent =
        if agent = agentId then [] else broker.subscriptionsOf agent := by
      unfold subscriptionsOf unsubscribe
      rw [OrderedDict.lookup_erase]
      split <;> rfl
    rw [membersOf_unsubscribe tidy, left, List.mem_filter, agree.members]
    by_cases same : agent = agentId <;> simp [same]
  queues agent := by
    unfold unsubscribe
    rw [OrderedDict.lookup_erase, OrderedDict.lookup_erase]
    split
    · exact Iff.rfl
    · exact agree.queues agent
  tenants agent := by
    unfold unsubscribe
    rw [OrderedDict.lookup_erase, OrderedDict.lookup_erase]
    split
    · exact Iff.rfl
    · exact agree.tenants agent

/-- The new workflow has no member, so nobody may be subscribed to it. -/
theorem indicesAgree_createWorkflow_iff (agree : IndicesAgree broker) :
    IndicesAgree broker.createWorkflow ↔
      ∀ agentId, nextWorkflow broker ∉ broker.subscriptionsOf agentId := by
  constructor
  · intro after agentId listed
    have member : agentId ∈ broker.createWorkflow.membersOf (nextWorkflow broker) :=
      (after.members agentId _).mpr listed
    rw [membersOf_createWorkflow, nextWorkflow, if_pos rfl] at member
    cases member
  · intro unused
    refine ⟨?_, agree.queues, agree.tenants⟩
    intro agentId workflowId
    rw [membersOf_createWorkflow]
    split
    · rename_i minted
      rw [minted]
      exact iff_of_false List.not_mem_nil (unused agentId)
    · exact agree.members agentId workflowId

theorem indicesAgree_step_iff (tidy : Tidy bus.broker) (agree : IndicesAgree bus.broker)
    (event : BusEvent) : IndicesAgree (bus.step event).broker ↔ MintsUnused bus event := by
  cases event with
  | createWorkflow => exact indicesAgree_createWorkflow_iff agree
  | subscribe agentId workflowId tenant =>
      exact iff_of_true (indicesAgree_subscribe agree agentId workflowId tenant) trivial
  | unsubscribe agentId =>
      exact iff_of_true (indicesAgree_unsubscribe tidy agree agentId) trivial
  | publish message freshAck =>
      exact iff_of_true (agree.of_sameTables (sameTables_publish _ _ _)) trivial
  | waitForMessage agentId =>
      rw [broker_waitForMessage]
      exact iff_of_true agree trivial
  | wake place => exact iff_of_true (agree.of_sameTables (sameTables_wake bus place)) trivial
  | giveUp place => exact iff_of_true agree trivial
  | pendingMessages agentId =>
      exact iff_of_true (agree.of_sameTables (sameTables_pendingMessages _ _)) trivial
  | ack agentId messageId =>
      exact iff_of_true (agree.of_sameTables ⟨rfl, rfl, rfl, rfl, rfl, rfl⟩) trivial

/-- The tables of a broker agree throughout exactly the runs that create workflows only
under identifiers nobody has subscribed to. -/
theorem indices_agree_iff (events : List BusEvent) :
    Throughout BusState.step (fun bus => IndicesAgree bus.broker) {} events ↔
      StepsMeet BusState.step MintsUnused {} events :=
  throughout_iff_stepsMeet (fun bus : BusState => Tidy bus.broker)
    (fun bus => IndicesAgree bus.broker)
    tidy_step (fun _ event tidy agree => indicesAgree_step_iff tidy agree event)
    tidy_empty indicesAgree_empty events

/-- An agent subscribes to the first identifier that will be minted, and then it is. -/
theorem created_workflow_forgets_member :
    ¬Throughout BusState.step (fun bus => IndicesAgree bus.broker) {}
      [.subscribe "a" "wf-0001" "default", .createWorkflow] := by
  intro always
  have member := ((always 2).members "a" "wf-0001").mpr (by decide)
  revert member
  decide

end YouMi.Bus
