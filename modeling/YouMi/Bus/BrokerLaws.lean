import YouMi.Bus.Broker
import YouMi.Library.Runs

/-!
# Laws of the broker

One law for each operation: which tables it changes and what it does to the queue
objects.  `Tidy` is what holds of every broker that operations have made from the
empty one.
-/

namespace YouMi.Bus

open YouMi.Library YouMi.Python

namespace InProcessBroker

/-- Two brokers that differ at most in queue contents and pending acknowledgements. -/
structure SameTables (before after : InProcessBroker) : Prop where
  queues : after.queues = before.queues
  subscriptions : after.subscriptions = before.subscriptions
  workflowMembers : after.workflowMembers = before.workflowMembers
  agentTenants : after.agentTenants = before.agentTenants
  workflowCounter : after.workflowCounter = before.workflowCounter
  queuesMade : after.queuesMade = before.queuesMade

variable {broker after : InProcessBroker}

theorem SameTables.refl (broker : InProcessBroker) : SameTables broker broker :=
  ⟨rfl, rfl, rfl, rfl, rfl, rfl⟩

theorem SameTables.trans {last : InProcessBroker} (first : SameTables broker after)
    (second : SameTables after last) : SameTables broker last :=
  ⟨second.queues.trans first.queues, second.subscriptions.trans first.subscriptions,
    second.workflowMembers.trans first.workflowMembers,
    second.agentTenants.trans first.agentTenants,
    second.workflowCounter.trans first.workflowCounter,
    second.queuesMade.trans first.queuesMade⟩

theorem SameTables.membersOf (same : SameTables broker after) (workflowId : String) :
    after.membersOf workflowId = broker.membersOf workflowId := by
  unfold InProcessBroker.membersOf
  rw [same.workflowMembers]

theorem SameTables.subscriptionsOf (same : SameTables broker after) (agentId : String) :
    after.subscriptionsOf agentId = broker.subscriptionsOf agentId := by
  unfold InProcessBroker.subscriptionsOf
  rw [same.subscriptions]

/-! ## What leaves the tables alone -/

theorem sameTables_deliver (message : WorkflowMessage) (broker : InProcessBroker)
    (targetId : String) : SameTables broker (deliver message broker targetId) := by
  unfold deliver
  split
  · exact SameTables.refl broker
  · dsimp only
    split <;> exact ⟨rfl, rfl, rfl, rfl, rfl, rfl⟩

theorem sameTables_foldl_deliver (message : WorkflowMessage) (targets : List String)
    (broker : InProcessBroker) :
    SameTables broker (targets.foldl (deliver message) broker) := by
  induction targets generalizing broker with
  | nil => exact SameTables.refl broker
  | cons target rest ih =>
      rw [List.foldl_cons]
      exact (sameTables_deliver message broker target).trans (ih _)

theorem sameTables_publish (broker : InProcessBroker) (message : WorkflowMessage)
    (freshAck : String) : SameTables broker (broker.publish message freshAck) :=
  sameTables_foldl_deliver _ _ broker

theorem sameTables_takeFirst {agentId : String} {number : Nat} {message : WorkflowMessage}
    (taken : broker.takeFirst agentId number = some (message, after)) :
    SameTables broker after := by
  unfold takeFirst at taken
  split at taken
  · cases taken
  · dsimp only at taken
    obtain ⟨rfl, rfl⟩ := Prod.mk.inj (Option.some.inj taken)
    split <;> exact ⟨rfl, rfl, rfl, rfl, rfl, rfl⟩

theorem sameTables_pendingMessages (broker : InProcessBroker) (agentId : String) :
    SameTables broker (broker.pendingMessages agentId).2 := by
  unfold pendingMessages
  split
  · exact SameTables.refl broker
  · exact ⟨rfl, rfl, rfl, rfl, rfl, rfl⟩

/-! ## Queue contents -/

theorem held_drop (agentId agent : String) (number n : Nat) (left : List WorkflowMessage) :
    (broker.drop agentId number left).held agent n =
      if agent = agentId ∧ n = number then left else broker.held agent n := rfl

theorem held_put (agentId agent : String) (number n : Nat) (message : WorkflowMessage) :
    (broker.put agentId number message).held agent n =
      broker.held agent n ++ if agent = agentId ∧ n = number then [message] else [] := by
  unfold put
  dsimp only
  split
  · rfl
  · exact (List.append_nil _).symm

theorem held_deliver (message : WorkflowMessage) (broker : InProcessBroker)
    (targetId agent : String) (n : Nat) :
    (deliver message broker targetId).held agent n =
      broker.held agent n ++
        if agent = targetId ∧ broker.queues.lookup agent = some n then [message] else [] := by
  unfold deliver
  split
  · rename_i missing
    have no_queue : ¬(agent = targetId ∧ broker.queues.lookup agent = some n) := by
      rintro ⟨rfl, found⟩
      rw [missing] at found
      cases found
    rw [if_neg no_queue, List.append_nil]
  · rename_i number found
    have same_case : (agent = targetId ∧ broker.queues.lookup agent = some n) ↔
        (agent = targetId ∧ n = number) := by
      constructor
      · rintro ⟨rfl, other⟩
        exact ⟨rfl, Option.some.inj (other.symm.trans found)⟩
      · rintro ⟨rfl, rfl⟩
        exact ⟨rfl, found⟩
    simp only [same_case]
    split <;> exact held_put ..

/-- Delivery to targets that are all different appends the message once to the queue of
each of them. -/
theorem held_foldl_deliver (message : WorkflowMessage) {targets : List String}
    (distinct : targets.Nodup) (broker : InProcessBroker) (agent : String) (n : Nat) :
    (targets.foldl (deliver message) broker).held agent n =
      broker.held agent n ++
        if agent ∈ targets ∧ broker.queues.lookup agent = some n then [message] else [] := by
  induction targets generalizing broker with
  | nil => simp
  | cons target rest ih =>
      obtain ⟨absent, distinct⟩ := List.nodup_cons.mp distinct
      rw [List.foldl_cons, ih distinct, held_deliver, (sameTables_deliver ..).queues,
        List.append_assoc]
      congr 1
      by_cases first : agent = target
      · subst first
        simp [absent]
      · simp [first]

theorem takeFirst_of_held {agentId : String} {number : Nat} {message : WorkflowMessage}
    {rest : List WorkflowMessage} (filled : broker.held agentId number = message :: rest) :
    ∃ after, broker.takeFirst agentId number = some (message, after) := by
  unfold takeFirst
  rw [filled]
  exact ⟨_, rfl⟩

/-- Taking the first message leaves the rest and touches no other queue object. -/
theorem held_takeFirst {agentId : String} {number : Nat} {message : WorkflowMessage}
    (taken : broker.takeFirst agentId number = some (message, after)) :
    broker.held agentId number = message :: after.held agentId number ∧
      ∀ agent n, ¬(agent = agentId ∧ n = number) → after.held agent n = broker.held agent n := by
  unfold takeFirst at taken
  split at taken
  · cases taken
  · rename_i first rest filled
    obtain ⟨rfl, rfl⟩ := Prod.mk.inj (Option.some.inj taken)
    have held_eq : ∀ agent n,
        (if first.needsAck then (broker.drop agentId number rest).ack agentId first.messageId
          else broker.drop agentId number rest).held agent n =
        if agent = agentId ∧ n = number then rest else broker.held agent n := by
      intro agent n
      split <;> rfl
    constructor
    · rw [filled, held_eq, if_pos ⟨rfl, rfl⟩]
    · intro agent n other
      rw [held_eq, if_neg other]

/-- Taking a message acknowledges it. -/
theorem pendingAcks_takeFirst {agentId : String} {number : Nat} {message : WorkflowMessage}
    (taken : broker.takeFirst agentId number = some (message, after)) :
    after.pendingAcks =
      if message.needsAck then broker.pendingAcks.erase (ackKey message.messageId agentId)
      else broker.pendingAcks := by
  unfold takeFirst at taken
  split at taken
  · cases taken
  · obtain ⟨rfl, rfl⟩ := Prod.mk.inj (Option.some.inj taken)
    split <;> rfl

theorem pendingMessages_fst (broker : InProcessBroker) (agentId : String) :
    (broker.pendingMessages agentId).1 = broker.queueOf agentId := by
  unfold pendingMessages queueOf
  split <;> rfl

theorem held_pendingMessages (broker : InProcessBroker) (agentId agent : String) (n : Nat) :
    (broker.pendingMessages agentId).2.held agent n =
      if agent = agentId ∧ broker.queues.lookup agentId = some n then []
      else broker.held agent n := by
  unfold pendingMessages
  cases found : broker.queues.lookup agentId with
  | none => simp
  | some number =>
      rw [held_drop]
      simp only [Option.some.injEq, eq_comm]

/-! ## Subscriptions -/

theorem queues_openQueue (broker : InProcessBroker) (agentId agent : String) :
    (broker.openQueue agentId).queues.lookup agent =
      if agent = agentId ∧ broker.queues.lookup agentId = none then some broker.queuesMade
      else broker.queues.lookup agent := by
  unfold openQueue
  by_cases present : agentId ∈ broker.queues.keys
  · have found : broker.queues.lookup agentId ≠ none :=
      fun missing => OrderedDict.lookup_eq_none_iff.mp missing present
    rw [if_pos present, if_neg fun both => found both.2]
  · have missing := OrderedDict.lookup_eq_none_iff.mpr present
    rw [if_neg present]
    simp [OrderedDict.lookup_assign, missing]

theorem joinWorkflow_fields (broker : InProcessBroker) (agentId workflowId : String) :
    (broker.joinWorkflow agentId workflowId).queues = broker.queues ∧
      (broker.joinWorkflow agentId workflowId).agentTenants = broker.agentTenants ∧
      (broker.joinWorkflow agentId workflowId).workflowCounter = broker.workflowCounter ∧
      (broker.joinWorkflow agentId workflowId).queuesMade = broker.queuesMade ∧
      (broker.joinWorkflow agentId workflowId).pendingAcks = broker.pendingAcks ∧
      (broker.joinWorkflow agentId workflowId).held = broker.held := by
  unfold joinWorkflow
  split <;> simp

theorem openQueue_fields (broker : InProcessBroker) (agentId : String) :
    (broker.openQueue agentId).subscriptions = broker.subscriptions ∧
      (broker.openQueue agentId).workflowMembers = broker.workflowMembers ∧
      (broker.openQueue agentId).agentTenants = broker.agentTenants ∧
      (broker.openQueue agentId).workflowCounter = broker.workflowCounter ∧
      (broker.openQueue agentId).pendingAcks = broker.pendingAcks ∧
      (broker.openQueue agentId).held = broker.held := by
  unfold openQueue
  split <;> simp

section Subscribe

variable (broker) (agentId workflowId tenant : String)

theorem held_subscribe : (broker.subscribe agentId workflowId tenant).held = broker.held := by
  unfold subscribe
  rw [(joinWorkflow_fields ..).2.2.2.2.2]
  exact (openQueue_fields ..).2.2.2.2.2

theorem pendingAcks_subscribe :
    (broker.subscribe agentId workflowId tenant).pendingAcks = broker.pendingAcks := by
  unfold subscribe
  rw [(joinWorkflow_fields ..).2.2.2.2.1]
  exact (openQueue_fields ..).2.2.2.2.1

theorem workflowCounter_subscribe :
    (broker.subscribe agentId workflowId tenant).workflowCounter = broker.workflowCounter := by
  unfold subscribe
  rw [(joinWorkflow_fields ..).2.2.1]
  exact (openQueue_fields ..).2.2.2.1

theorem queues_subscribe (agent : String) :
    (broker.subscribe agentId workflowId tenant).queues.lookup agent =
      if agent = agentId ∧ broker.queues.lookup agentId = none then some broker.queuesMade
      else broker.queues.lookup agent := by
  unfold subscribe
  rw [(joinWorkflow_fields ..).1]
  exact queues_openQueue ..

theorem agentTenants_subscribe (agent : String) :
    (broker.subscribe agentId workflowId tenant).agentTenants.lookup agent =
      if agent = agentId then some (tenantOrDefault tenant)
      else broker.agentTenants.lookup agent := by
  unfold subscribe
  rw [(joinWorkflow_fields ..).2.1, OrderedDict.lookup_assign, (openQueue_fields ..).2.2.1]

theorem membersOf_subscribe (workflow : String) :
    (broker.subscribe agentId workflowId tenant).membersOf workflow =
      if workflow = workflowId ∧ workflowId ≠ "" then
        (broker.membersOf workflowId).insert agentId
      else broker.membersOf workflow := by
  have opened : (broker.openQueue agentId).membersOf = broker.membersOf := by
    funext w
    unfold membersOf
    rw [(openQueue_fields ..).2.1]
  unfold subscribe joinWorkflow
  by_cases none_given : workflowId = ""
  · simp only [none_given, ↓reduceIte, ne_eq, not_true_eq_false, and_false]
    exact congrFun opened workflow
  · simp only [none_given, ↓reduceIte, ne_eq, not_false_eq_true, and_true]
    unfold membersOf at opened ⊢
    dsimp only
    rw [OrderedDict.lookup_assign]
    split
    · exact congrArg (List.insert agentId) (congrFun opened workflowId)
    · exact congrFun opened workflow

theorem subscriptionsOf_subscribe (agent : String) :
    (broker.subscribe agentId workflowId tenant).subscriptionsOf agent =
      if agent = agentId ∧ workflowId ≠ "" then
        (broker.subscriptionsOf agentId).insert workflowId
      else broker.subscriptionsOf agent := by
  have opened : (broker.openQueue agentId).subscriptionsOf = broker.subscriptionsOf := by
    funext a
    unfold subscriptionsOf
    rw [(openQueue_fields ..).1]
  unfold subscribe joinWorkflow
  by_cases none_given : workflowId = ""
  · simp only [none_given, ↓reduceIte, ne_eq, not_true_eq_false, and_false]
    unfold subscriptionsOf at opened ⊢
    dsimp only
    rw [OrderedDict.lookup_assign]
    split
    · rename_i same
      rw [same]
      exact congrFun opened agentId
    · exact congrFun opened agent
  · simp only [none_given, ↓reduceIte, ne_eq, not_false_eq_true, and_true]
    unfold subscriptionsOf at opened ⊢
    dsimp only
    rw [OrderedDict.lookup_assign, OrderedDict.lookup_assign, OrderedDict.lookup_assign,
      if_pos rfl]
    split
    · exact congrArg (List.insert workflowId) (congrFun opened agentId)
    · exact congrFun opened agent

end Subscribe

/-- What an agent's departure leaves of the members of a workflow. -/
theorem lookup_foldl_discardMember (agentId : String) (workflows : List String)
    (members : OrderedDict String (List String)) (workflowId : String) :
    ((workflows.foldl (discardMember agentId) members).lookup workflowId).getD [] =
      if workflowId ∈ workflows then
        ((members.lookup workflowId).getD []).filter (· ≠ agentId)
      else (members.lookup workflowId).getD [] := by
  have one : ∀ (members : OrderedDict String (List String)) (first : String),
      ((discardMember agentId members first).lookup workflowId).getD [] =
        if workflowId = first then ((members.lookup workflowId).getD []).filter (· ≠ agentId)
        else (members.lookup workflowId).getD [] := by
    intro members first
    unfold discardMember
    dsimp only
    split
    · rename_i empty
      rw [OrderedDict.lookup_erase]
      split
      · rename_i same
        rw [same, empty]
        rfl
      · rfl
    · rw [OrderedDict.lookup_assign]
      split
      · rename_i same
        rw [same]
        rfl
      · rfl
  induction workflows generalizing members with
  | nil => simp
  | cons first rest ih =>
      rw [List.foldl_cons, ih, one]
      by_cases same : workflowId = first
      · simp [same]
      · simp [same]

theorem membersOf_createWorkflow (broker : InProcessBroker) (workflow : String) :
    broker.createWorkflow.membersOf workflow =
      if workflow = workflowName (broker.workflowCounter + 1) then []
      else broker.membersOf workflow := by
  unfold membersOf createWorkflow
  rw [OrderedDict.lookup_assign]
  split <;> rfl

/-! ## Pending acknowledgements -/

theorem lookup_pendingAcks_deliver (message : WorkflowMessage) (broker : InProcessBroker)
    (targetId key : String) :
    (deliver message broker targetId).pendingAcks.lookup key =
      if message.needsAck ∧ broker.queues.lookup targetId ≠ none ∧
          key = ackKey message.messageId targetId then some message
      else broker.pendingAcks.lookup key := by
  unfold deliver
  split
  · rename_i missing
    simp [missing]
  · rename_i number found
    dsimp only
    split
    · rename_i needed
      rw [OrderedDict.lookup_assign]
      simp [needed, found, put]
    · rename_i unneeded
      simp [unneeded, put]

theorem lookup_pendingAcks_foldl_deliver (message : WorkflowMessage) (targets : List String)
    (broker : InProcessBroker) (key : String) :
    (targets.foldl (deliver message) broker).pendingAcks.lookup key =
      if message.needsAck ∧ ∃ target ∈ targets, broker.queues.lookup target ≠ none ∧
          key = ackKey message.messageId target then some message
      else broker.pendingAcks.lookup key := by
  induction targets generalizing broker with
  | nil => simp
  | cons target rest ih =>
      rw [List.foldl_cons, ih, lookup_pendingAcks_deliver, (sameTables_deliver ..).queues]
      simp only [List.mem_cons, exists_eq_or_imp]
      by_cases later : ∃ target ∈ rest, broker.queues.lookup target ≠ none ∧
          key = ackKey message.messageId target
      · simp only [later, or_true, and_true]
        split
        · rfl
        · rename_i unneeded
          exact if_neg fun both => unneeded both.1
      · simp only [later, or_false, and_false, ↓reduceIte]

/-- A publication takes no entry away. -/
theorem pendingAcks_publish {key : String} (message : WorkflowMessage) (freshAck : String)
    (pending : broker.pendingAcks.lookup key ≠ none) :
    (broker.publish message freshAck).pendingAcks.lookup key ≠ none := by
  unfold publish
  rw [lookup_pendingAcks_foldl_deliver]
  split
  · simp
  · exact pending

/-! ## Brokers made by operations -/

/-- What holds of every broker that operations have made from the empty one. -/
structure Tidy (broker : InProcessBroker) : Prop where
  queueKeys : broker.queues.keys.Nodup
  members : ∀ workflowId, (broker.membersOf workflowId).Nodup
  joined : ∀ workflowId agentId, agentId ∈ broker.membersOf workflowId →
    workflowId ∈ broker.subscriptionsOf agentId
  tenants : ∀ agentId,
    (broker.agentTenants.lookup agentId).isSome = (broker.queues.lookup agentId).isSome
  numbers : ∀ agentId number, broker.queues.lookup agentId = some number →
    number < broker.queuesMade
  unmade : ∀ agentId number, broker.queuesMade ≤ number → broker.held agentId number = []

theorem tidy_empty : Tidy {} := by
  refine ⟨List.nodup_nil, fun _ => List.nodup_nil, ?_, fun _ => rfl, ?_, fun _ _ _ => rfl⟩
  · intro workflowId agentId member
    cases member
  · intro agentId number found
    cases found

/-- An operation that keeps the tables and puts nothing into a queue object that was never
made keeps a tidy broker tidy. -/
theorem Tidy.of_sameTables (tidy : Tidy broker) (same : SameTables broker after)
    (unmade : ∀ agentId number, broker.queuesMade ≤ number → after.held agentId number = []) :
    Tidy after where
  queueKeys := by
    rw [same.queues]
    exact tidy.queueKeys
  members workflowId := by
    rw [same.membersOf]
    exact tidy.members workflowId
  joined workflowId agentId member := by
    rw [same.membersOf] at member
    rw [same.subscriptionsOf]
    exact tidy.joined workflowId agentId member
  tenants agentId := by
    rw [same.agentTenants, same.queues]
    exact tidy.tenants agentId
  numbers agentId number found := by
    rw [same.queues] at found
    rw [same.queuesMade]
    exact tidy.numbers agentId number found
  unmade agentId number large := by
    rw [same.queuesMade] at large
    exact unmade agentId number large

/-- Whoever has a queue has a tenant. -/
theorem Tidy.exists_tenant (tidy : Tidy broker) {agentId : String}
    (subscribed : broker.queues.lookup agentId ≠ none) :
    ∃ tenant, broker.agentTenants.lookup agentId = some tenant := by
  have both := tidy.tenants agentId
  rw [Option.isSome_iff_ne_none.mpr subscribed] at both
  exact Option.isSome_iff_exists.mp both

/-- Whoever has no tenant has no queue. -/
theorem Tidy.no_queue (tidy : Tidy broker) {agentId : String}
    (missing : broker.agentTenants.lookup agentId = none) :
    broker.queues.lookup agentId = none := by
  by_contra subscribed
  obtain ⟨tenant, found⟩ := tidy.exists_tenant subscribed
  exact absurd (missing.symm.trans found) (by simp)

theorem nodup_candidates (tidy : Tidy broker) (message : WorkflowMessage) :
    (broker.candidates message).Nodup := by
  unfold candidates
  split
  · split
    · exact (tidy.members _).filter _
    · exact tidy.queueKeys.filter _
  · split
    · split
      · exact List.nodup_singleton _
      · exact List.nodup_nil
    · exact List.nodup_nil

theorem nodup_resolveTargets (tidy : Tidy broker) (message : WorkflowMessage) :
    (broker.resolveTargets message).Nodup :=
  (nodup_candidates tidy message).filter _

theorem mem_resolveTargets {agent : String} {message : WorkflowMessage} :
    agent ∈ broker.resolveTargets message ↔
      agent ∈ broker.candidates message ∧ broker.tenantOf agent = message.tenant := by
  simp [resolveTargets]

theorem mem_queueKeys_iff {agent : String} :
    agent ∈ broker.queues.keys ↔ broker.queues.lookup agent ≠ none := by
  rw [ne_eq, OrderedDict.lookup_eq_none_iff, not_not]

/-- The `ack_id` has no part in finding the targets. -/
theorem resolveTargets_stamp (broker : InProcessBroker) (message : WorkflowMessage)
    (freshAck : String) :
    broker.resolveTargets (message.stamp freshAck) = broker.resolveTargets message := by
  rw [WorkflowMessage.stamp_content]
  rfl

/-- A publication appends the stamped message once to the queue of each of its targets. -/
theorem held_publish (tidy : Tidy broker) (message : WorkflowMessage)
    (freshAck agent : String) (n : Nat) :
    (broker.publish message freshAck).held agent n =
      broker.held agent n ++
        if agent ∈ broker.resolveTargets message ∧ broker.queues.lookup agent = some n then
          [message.stamp freshAck]
        else [] := by
  unfold publish
  rw [held_foldl_deliver _ (nodup_resolveTargets tidy _), resolveTargets_stamp]

/-- Each target that is subscribed owes an acknowledgement of a message that needs one. -/
theorem lookup_pendingAcks_publish (broker : InProcessBroker) (message : WorkflowMessage)
    (freshAck key : String) :
    (broker.publish message freshAck).pendingAcks.lookup key =
      if (message.stamp freshAck).needsAck ∧
          ∃ target ∈ broker.resolveTargets message, broker.queues.lookup target ≠ none ∧
            key = ackKey message.messageId target then some (message.stamp freshAck)
      else broker.pendingAcks.lookup key := by
  unfold publish
  rw [lookup_pendingAcks_foldl_deliver, resolveTargets_stamp]
  have same_id : (message.stamp freshAck).messageId = message.messageId := by
    rw [WorkflowMessage.stamp_content]
  rw [same_id]

theorem tidy_publish (tidy : Tidy broker) (message : WorkflowMessage) (freshAck : String) :
    Tidy (broker.publish message freshAck) := by
  refine tidy.of_sameTables (sameTables_publish broker message freshAck) ?_
  intro agentId number large
  have no_queue : broker.queues.lookup agentId ≠ some number := by
    intro found
    have small := tidy.numbers agentId number found
    omega
  rw [held_publish tidy, tidy.unmade agentId number large, if_neg fun both => no_queue both.2]
  rfl

theorem tidy_takeFirst (tidy : Tidy broker) {agentId : String} {number : Nat}
    {message : WorkflowMessage}
    (taken : broker.takeFirst agentId number = some (message, after)) : Tidy after := by
  refine tidy.of_sameTables (sameTables_takeFirst taken) ?_
  intro agent n large
  obtain ⟨first, others⟩ := held_takeFirst taken
  by_cases here : agent = agentId ∧ n = number
  · obtain ⟨rfl, rfl⟩ := here
    rw [tidy.unmade agent n large] at first
    cases first
  · rw [others agent n here]
    exact tidy.unmade agent n large

theorem tidy_pendingMessages (tidy : Tidy broker) (agentId : String) :
    Tidy (broker.pendingMessages agentId).2 := by
  refine tidy.of_sameTables (sameTables_pendingMessages broker agentId) ?_
  intro agent n large
  rw [held_pendingMessages]
  split
  · rfl
  · exact tidy.unmade agent n large

theorem tidy_ack (tidy : Tidy broker) (agentId messageId : String) :
    Tidy (broker.ack agentId messageId) :=
  tidy.of_sameTables ⟨rfl, rfl, rfl, rfl, rfl, rfl⟩ tidy.unmade

theorem tidy_createWorkflow (tidy : Tidy broker) : Tidy broker.createWorkflow where
  queueKeys := tidy.queueKeys
  members workflowId := by
    rw [membersOf_createWorkflow]
    split
    · exact List.nodup_nil
    · exact tidy.members workflowId
  joined workflowId agentId member := by
    rw [membersOf_createWorkflow] at member
    split at member
    · cases member
    · exact tidy.joined workflowId agentId member
  tenants := tidy.tenants
  numbers := tidy.numbers
  unmade := tidy.unmade

theorem queuesMade_subscribe (broker : InProcessBroker) (agentId workflowId tenant : String) :
    (broker.subscribe agentId workflowId tenant).queuesMade =
      if broker.queues.lookup agentId = none then broker.queuesMade + 1
      else broker.queuesMade := by
  unfold subscribe
  rw [(joinWorkflow_fields ..).2.2.2.1]
  dsimp only
  unfold openQueue
  by_cases present : agentId ∈ broker.queues.keys
  · have found : broker.queues.lookup agentId ≠ none :=
      fun missing => OrderedDict.lookup_eq_none_iff.mp missing present
    rw [if_pos present, if_neg found]
  · rw [if_neg present, if_pos (OrderedDict.lookup_eq_none_iff.mpr present)]

theorem nodup_keys_subscribe (distinct : broker.queues.keys.Nodup)
    (agentId workflowId tenant : String) :
    (broker.subscribe agentId workflowId tenant).queues.keys.Nodup := by
  unfold subscribe
  rw [(joinWorkflow_fields ..).1]
  dsimp only
  unfold openQueue
  split
  · exact distinct
  · exact OrderedDict.nodup_keys_assign distinct

theorem tidy_subscribe (tidy : Tidy broker) (agentId workflowId tenant : String) :
    Tidy (broker.subscribe agentId workflowId tenant) where
  queueKeys := nodup_keys_subscribe tidy.queueKeys agentId workflowId tenant
  members workflow := by
    rw [membersOf_subscribe]
    split
    · exact (tidy.members workflowId).insert
    · exact tidy.members workflow
  joined workflow agent member := by
    rw [membersOf_subscribe] at member
    rw [subscriptionsOf_subscribe]
    split at member
    · rename_i joins
      obtain ⟨rfl, named⟩ := joins
      rcases List.mem_insert_iff.mp member with rfl | before
      · rw [if_pos ⟨rfl, named⟩]
        exact List.mem_insert_iff.mpr (.inl rfl)
      · have listed := tidy.joined workflow agent before
        split
        · rename_i same
          rw [← same.1]
          exact List.mem_insert_iff.mpr (.inr listed)
        · exact listed
    · have listed := tidy.joined workflow agent member
      split
      · rename_i same
        rw [← same.1]
        exact List.mem_insert_iff.mpr (.inr listed)
      · exact listed
  tenants agent := by
    rw [agentTenants_subscribe, queues_subscribe]
    by_cases same : agent = agentId
    · subst same
      cases found : broker.queues.lookup agent <;> simp
    · simp only [same, ↓reduceIte, false_and]
      exact tidy.tenants agent
  numbers agent number found := by
    rw [queues_subscribe] at found
    rw [queuesMade_subscribe]
    split at found
    · rename_i fresh
      rw [if_pos fresh.2]
      have made := Option.some.inj found
      omega
    · have small := tidy.numbers agent number found
      split <;> omega
  unmade agent number large := by
    rw [queuesMade_subscribe] at large
    rw [held_subscribe]
    refine tidy.unmade agent number ?_
    split at large <;> omega

/-- Whoever unsubscribes leaves every workflow. -/
theorem membersOf_unsubscribe (tidy : Tidy broker) (agentId workflow : String) :
    (broker.unsubscribe agentId).membersOf workflow =
      (broker.membersOf workflow).filter (· ≠ agentId) := by
  have after := lookup_foldl_discardMember agentId (broker.subscriptionsOf agentId)
    broker.workflowMembers workflow
  unfold membersOf unsubscribe
  rw [after]
  split
  · rfl
  · rename_i not_listed
    have absent : agentId ∉ broker.membersOf workflow :=
      fun member => not_listed (tidy.joined workflow agentId member)
    refine (List.filter_eq_self.mpr ?_).symm
    intro agent member
    exact decide_eq_true fun same => absent (same ▸ member)

theorem tidy_unsubscribe (tidy : Tidy broker) (agentId : String) :
    Tidy (broker.unsubscribe agentId) where
  queueKeys := OrderedDict.nodup_keys_erase tidy.queueKeys
  members workflowId := by
    rw [membersOf_unsubscribe tidy]
    exact (tidy.members workflowId).filter _
  joined workflowId agent member := by
    rw [membersOf_unsubscribe tidy] at member
    obtain ⟨before, other⟩ := List.mem_filter.mp member
    have listed := tidy.joined workflowId agent before
    have ne : agent ≠ agentId := of_decide_eq_true other
    unfold subscriptionsOf unsubscribe at *
    rw [OrderedDict.lookup_erase_ne ne]
    exact listed
  tenants agent := by
    unfold unsubscribe
    rw [OrderedDict.lookup_erase, OrderedDict.lookup_erase]
    split
    · rfl
    · exact tidy.tenants agent
  numbers agent number found := by
    unfold unsubscribe at found
    rw [OrderedDict.lookup_erase] at found
    split at found
    · cases found
    · exact tidy.numbers agent number found
  unmade := tidy.unmade

/-! ## What an agent would read -/

section QueueOf

variable {agent : String}

theorem queueOf_of_lookup {broker : InProcessBroker} {number : Nat}
    (found : broker.queues.lookup agent = some number) :
    broker.queueOf agent = broker.held agent number := by
  unfold queueOf
  rw [found]

theorem queueOf_of_missing {broker : InProcessBroker}
    (missing : broker.queues.lookup agent = none) : broker.queueOf agent = [] := by
  unfold queueOf
  rw [missing]

theorem queueOf_congr (same : SameTables broker after)
    (untouched : ∀ number, after.held agent number = broker.held agent number) :
    after.queueOf agent = broker.queueOf agent := by
  unfold queueOf
  rw [same.queues]
  split
  · rfl
  · exact untouched _

/-- A new queue object is empty, and an old one keeps its messages. -/
theorem queueOf_subscribe (tidy : Tidy broker) (agentId workflowId tenant : String) :
    (broker.subscribe agentId workflowId tenant).queueOf agent = broker.queueOf agent := by
  unfold queueOf
  rw [queues_subscribe, held_subscribe]
  split_ifs with fresh
  · rw [fresh.1, fresh.2]
    exact tidy.unmade agentId broker.queuesMade (Nat.le_refl _)
  · rfl

theorem queueOf_unsubscribe_self (broker : InProcessBroker) (agentId : String) :
    (broker.unsubscribe agentId).queueOf agentId = [] :=
  queueOf_of_missing OrderedDict.lookup_erase_self

theorem queueOf_unsubscribe_ne (broker : InProcessBroker) {agentId : String}
    (ne : agent ≠ agentId) :
    (broker.unsubscribe agentId).queueOf agent = broker.queueOf agent := by
  unfold queueOf unsubscribe
  rw [OrderedDict.lookup_erase_ne ne]

theorem queueOf_publish (tidy : Tidy broker) (message : WorkflowMessage)
    (freshAck agent : String) :
    (broker.publish message freshAck).queueOf agent =
      broker.queueOf agent ++
        if agent ∈ broker.resolveTargets message ∧ broker.queues.lookup agent ≠ none then
          [message.stamp freshAck]
        else [] := by
  unfold queueOf
  rw [(sameTables_publish ..).queues]
  split
  · rename_i missing
    simp [missing]
  · rename_i number found
    rw [held_publish tidy]
    simp [found]

theorem queueOf_takeFirst {agentId : String} {number : Nat} {message : WorkflowMessage}
    (taken : broker.takeFirst agentId number = some (message, after)) (agent : String) :
    after.queueOf agent =
      if agent = agentId ∧ broker.queues.lookup agent = some number then
        (broker.queueOf agent).tail
      else broker.queueOf agent := by
  obtain ⟨first, others⟩ := held_takeFirst taken
  have same := sameTables_takeFirst taken
  split
  · rename_i own
    obtain ⟨rfl, found⟩ := own
    rw [queueOf_of_lookup found, queueOf_of_lookup (same.queues ▸ found), first]
    rfl
  · rename_i other
    unfold queueOf
    rw [same.queues]
    split
    · rfl
    · rename_i n found
      refine others agent n fun both => other ⟨both.1, ?_⟩
      rw [found, both.2]

end QueueOf

end InProcessBroker

/-! ## Events -/

section Events

open InProcessBroker

variable {bus : BusState}

/-- A call that is woken returns with the first message of the queue object it holds, or
nothing happens. -/
theorem wake_cases (bus : BusState) (place : Nat) :
    (bus.step (.wake place) = bus ∧ bus.received (.wake place) = []) ∨
      ∃ agentId number message broker,
        bus.readers[place]? = some (agentId, number) ∧
        bus.broker.takeFirst agentId number = some (message, broker) ∧
        bus.step (.wake place) = { broker, readers := bus.readers.eraseIdx place } ∧
        bus.received (.wake place) = [(agentId, message)] := by
  unfold BusState.step BusState.received
  dsimp only
  split
  · exact .inl ⟨rfl, rfl⟩
  · rename_i agentId number reading
    split
    · exact .inl ⟨rfl, rfl⟩
    · rename_i message broker taken
      exact .inr ⟨agentId, number, message, broker, reading, taken, rfl, rfl⟩

theorem sameTables_wake (bus : BusState) (place : Nat) :
    SameTables bus.broker (bus.step (.wake place)).broker := by
  rcases wake_cases bus place with ⟨idle, -⟩ | ⟨_, _, _, _, -, taken, woken, -⟩
  · rw [idle]
    exact SameTables.refl _
  · rw [woken]
    exact sameTables_takeFirst taken

/-- A wake-up puts nothing into a queue object. -/
theorem mem_held_of_wake {place number : Nat} {agent : String} {message : WorkflowMessage}
    (member : message ∈ (bus.step (.wake place)).broker.held agent number) :
    message ∈ bus.broker.held agent number := by
  rcases wake_cases bus place with ⟨idle, -⟩ | ⟨agentId, n, _, _, -, taken, woken, -⟩
  · rw [idle] at member
    exact member
  · rw [woken] at member
    obtain ⟨first, others⟩ := held_takeFirst taken
    by_cases here : agent = agentId ∧ number = n
    · obtain ⟨rfl, rfl⟩ := here
      rw [first]
      exact List.mem_cons_of_mem _ member
    · rw [← others agent number here]
      exact member

theorem broker_waitForMessage (bus : BusState) (agentId : String) :
    (bus.step (.waitForMessage agentId)).broker = bus.broker := by
  unfold BusState.step
  dsimp only
  split <;> rfl

/-- Only a call of `wait_for_message` adds a reader, with the queue object it finds. -/
theorem mem_readers_step {reader : String × Nat} {event : BusEvent}
    (member : reader ∈ (bus.step event).readers) :
    reader ∈ bus.readers ∨ bus.broker.queues.lookup reader.1 = some reader.2 := by
  cases event with
  | waitForMessage agentId =>
      unfold BusState.step at member
      dsimp only at member
      split at member
      · exact .inl member
      · rename_i found
        rcases List.mem_append.mp member with before | now
        · exact .inl before
        · rw [List.mem_singleton.mp now]
          exact .inr found
  | wake place =>
      rcases wake_cases bus place with ⟨idle, -⟩ | ⟨_, _, _, _, -, -, woken, -⟩
      · rw [idle] at member
        exact .inl member
      · rw [woken] at member
        exact .inl (List.mem_of_mem_eraseIdx member)
  | giveUp place => exact .inl (List.mem_of_mem_eraseIdx member)
  | subscribe agentId workflowId tenant => exact .inl member
  | unsubscribe agentId => exact .inl member
  | createWorkflow => exact .inl member
  | publish message freshAck => exact .inl member
  | pendingMessages agentId => exact .inl member
  | ack agentId messageId => exact .inl member

/-- An agent's tenant is the one it has subscribed with now, or it had it before. -/
theorem agentTenants_step {event : BusEvent} {agent tenant : String}
    (found : (bus.step event).broker.agentTenants.lookup agent = some tenant) :
    (∃ workflowId given, event = .subscribe agent workflowId given ∧
        tenant = tenantOrDefault given) ∨
      bus.broker.agentTenants.lookup agent = some tenant := by
  cases event with
  | subscribe agentId workflowId given =>
      have lookup := (agentTenants_subscribe bus.broker agentId workflowId given agent).symm.trans
        found
      split at lookup
      · rename_i same
        subst same
        exact .inl ⟨workflowId, given, rfl, (Option.some.inj lookup).symm⟩
      · exact .inr lookup
  | unsubscribe agentId =>
      have lookup : (bus.broker.agentTenants.erase agentId).lookup agent = some tenant := found
      rw [OrderedDict.lookup_erase] at lookup
      split at lookup
      · cases lookup
      · exact .inr lookup
  | publish message freshAck =>
      have same := (sameTables_publish bus.broker message freshAck).agentTenants
      exact .inr ((congrArg (·.lookup agent) same).symm.trans found)
  | waitForMessage agentId =>
      rw [broker_waitForMessage] at found
      exact .inr found
  | wake place =>
      rw [(sameTables_wake bus place).agentTenants] at found
      exact .inr found
  | pendingMessages agentId =>
      have same := (sameTables_pendingMessages bus.broker agentId).agentTenants
      exact .inr ((congrArg (·.lookup agent) same).symm.trans found)
  | createWorkflow => exact .inr found
  | giveUp place => exact .inr found
  | ack agentId messageId => exact .inr found

/-- Every event keeps the broker tidy. -/
theorem tidy_step (bus : BusState) (event : BusEvent) (tidy : Tidy bus.broker) :
    Tidy (bus.step event).broker := by
  cases event with
  | subscribe agentId workflowId tenant => exact tidy_subscribe tidy agentId workflowId tenant
  | unsubscribe agentId => exact tidy_unsubscribe tidy agentId
  | createWorkflow => exact tidy_createWorkflow tidy
  | publish message freshAck => exact tidy_publish tidy message freshAck
  | waitForMessage agentId =>
      rw [broker_waitForMessage]
      exact tidy
  | wake place =>
      rcases wake_cases bus place with ⟨idle, -⟩ | ⟨_, _, _, _, -, taken, woken, -⟩
      · rw [idle]
        exact tidy
      · rw [woken]
        exact tidy_takeFirst tidy taken
  | giveUp place => exact tidy
  | pendingMessages agentId => exact tidy_pendingMessages tidy agentId
  | ack agentId messageId => exact tidy_ack tidy agentId messageId

end Events

end YouMi.Bus
