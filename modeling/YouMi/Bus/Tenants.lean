import YouMi.Bus.BrokerLaws

/-!
# Messages and tenants

The broker compares tenants when it puts a message into a queue; a read does not
compare them again.  The messages an agent may still read are of its tenant as long
as the agent keeps its tenant, and its subscription, while messages wait.
-/

namespace YouMi.Bus

open YouMi.Library InProcessBroker

/-- Every message an event hands over has the tenant its reader is subscribed under. -/
def HandsOverOwnTenant (bus : BusState) (event : BusEvent) : Prop :=
  ∀ handed ∈ bus.received event,
    bus.broker.agentTenants.lookup handed.1 = some handed.2.tenant

/-- The agent may read from the queue object: it is the one of its subscription, or a call
of `wait_for_message` holds it. -/
def Readable (bus : BusState) (agent : String) (number : Nat) : Prop :=
  bus.broker.queues.lookup agent = some number ∨ (agent, number) ∈ bus.readers

/-- Every message an agent may read has the tenant the agent is subscribed under. -/
def Isolated (bus : BusState) : Prop :=
  ∀ agent number, Readable bus agent number →
    ∀ message ∈ bus.broker.held agent number,
      bus.broker.agentTenants.lookup agent = some message.tenant

/-- A subscription is changed to another tenant, or ended, only where no message waits that
the agent could still read. -/
def TenantSettled (bus : BusState) : BusEvent → Prop
  | .subscribe agentId _ tenant =>
      (∃ number, Readable bus agentId number ∧ bus.broker.held agentId number ≠ []) →
        bus.broker.agentTenants.lookup agentId = some (tenantOrDefault tenant)
  | .unsubscribe agentId =>
      ∀ number, (agentId, number) ∈ bus.readers → bus.broker.held agentId number = []
  | _ => True

variable {bus : BusState}

/-- What is handed over stood in a queue object that the reader may read. -/
theorem received_from_readable {event : BusEvent} {handed : String × WorkflowMessage}
    (member : handed ∈ bus.received event) :
    ∃ number, Readable bus handed.1 number ∧ handed.2 ∈ bus.broker.held handed.1 number := by
  cases event with
  | wake place =>
      rcases wake_cases bus place with
        ⟨-, nothing⟩ | ⟨agentId, number, message, broker, reading, taken, -, given⟩
      · rw [nothing] at member
        cases member
      · rw [given] at member
        rw [List.mem_singleton.mp member]
        refine ⟨number, .inr (List.mem_of_getElem? reading), ?_⟩
        rw [(held_takeFirst taken).1]
        exact List.mem_cons_self
  | pendingMessages agentId =>
      unfold BusState.received at member
      dsimp only at member
      rw [pendingMessages_fst] at member
      obtain ⟨message, waiting, rfl⟩ := List.mem_map.mp member
      cases found : bus.broker.queues.lookup agentId with
      | none =>
          rw [queueOf_of_missing found] at waiting
          cases waiting
      | some number =>
          rw [queueOf_of_lookup found] at waiting
          exact ⟨number, .inl found, waiting⟩
  | _ => cases member

theorem Isolated.handsOver (isolated : Isolated bus) (event : BusEvent) :
    HandsOverOwnTenant bus event := by
  intro handed member
  obtain ⟨number, readable, waiting⟩ := received_from_readable member
  exact isolated handed.1 number readable handed.2 waiting

/-- An event that keeps the tables and puts nothing into a queue keeps an isolated bus so. -/
theorem Isolated.of_fewer {event : BusEvent} (isolated : Isolated bus)
    (same : SameTables bus.broker (bus.step event).broker)
    (held : ∀ agent number, ∀ message ∈ (bus.step event).broker.held agent number,
      message ∈ bus.broker.held agent number) : Isolated (bus.step event) := by
  intro agent number readable message waiting
  have before : Readable bus agent number := by
    rcases readable with found | reading
    · rw [same.queues] at found
      exact .inl found
    · exact (mem_readers_step reading).symm
  rw [same.agentTenants]
  exact isolated agent number before message (held agent number message waiting)

theorem isolated_publish (tidy : Tidy bus.broker) (isolated : Isolated bus)
    (message : WorkflowMessage) (freshAck : String) :
    Isolated (bus.step (.publish message freshAck)) := by
  have same := sameTables_publish bus.broker message freshAck
  intro agent number readable waiting member
  have before : Readable bus agent number := by
    unfold Readable BusState.step at readable
    rw [same.queues] at readable
    exact readable
  unfold BusState.step at member ⊢
  dsimp only at member ⊢
  rw [same.agentTenants]
  rw [held_publish tidy] at member
  rcases List.mem_append.mp member with old | new
  · exact isolated agent number before waiting old
  · split at new
    · rename_i target
      obtain ⟨isTarget, found⟩ := target
      rw [List.mem_singleton.mp new]
      have subscribed : bus.broker.queues.lookup agent ≠ none := by simp [found]
      obtain ⟨tenant, there⟩ := tidy.exists_tenant subscribed
      have agree := (mem_resolveTargets.mp isTarget).2
      unfold tenantOf at agree
      rw [there] at agree
      rw [there, WorkflowMessage.stamp_content]
      exact congrArg some agree
    · cases new

theorem isolated_subscribe_iff (tidy : Tidy bus.broker) (isolated : Isolated bus)
    (agentId workflowId tenant : String) :
    Isolated (bus.step (.subscribe agentId workflowId tenant)) ↔
      TenantSettled bus (.subscribe agentId workflowId tenant) := by
  constructor
  · rintro after ⟨number, readable, filled⟩
    obtain ⟨message, waiting⟩ := List.exists_mem_of_ne_nil _ filled
    have still : Readable (bus.step (.subscribe agentId workflowId tenant)) agentId number := by
      rcases readable with found | reading
      · refine .inl ((queues_subscribe ..).trans ?_)
        rw [if_neg fun fresh => absurd (found.symm.trans fresh.2) (by simp)]
        exact found
      · exact .inr reading
    have new := after agentId number still message (by
      unfold BusState.step
      rw [held_subscribe]
      exact waiting)
    have old := isolated agentId number readable message waiting
    unfold BusState.step at new
    rw [agentTenants_subscribe, if_pos rfl] at new
    rw [old, new]
  · intro settled agent number readable message waiting
    unfold BusState.step at readable waiting ⊢
    dsimp only at waiting ⊢
    unfold Readable at readable
    dsimp only at readable
    rw [held_subscribe] at waiting
    rw [queues_subscribe] at readable
    have before : Readable bus agent number := by
      rcases readable with found | reading
      · split at found
        · rw [← Option.some.inj found, tidy.unmade agent _ (Nat.le_refl _)] at waiting
          cases waiting
        · exact .inl found
      · exact .inr reading
    have old := isolated agent number before message waiting
    rw [agentTenants_subscribe]
    split
    · rename_i same
      subst same
      rw [← settled ⟨number, before, List.ne_nil_of_mem waiting⟩]
      exact old
    · exact old

theorem isolated_unsubscribe_iff (isolated : Isolated bus) (agentId : String) :
    Isolated (bus.step (.unsubscribe agentId)) ↔ TenantSettled bus (.unsubscribe agentId) := by
  constructor
  · intro after number reading
    refine List.eq_nil_iff_forall_not_mem.mpr fun message waiting => ?_
    have gone := after agentId number (.inr reading) message waiting
    unfold BusState.step unsubscribe at gone
    rw [OrderedDict.lookup_erase_self] at gone
    cases gone
  · intro settled agent number readable message waiting
    unfold BusState.step unsubscribe at readable waiting ⊢
    unfold Readable at readable
    dsimp only at readable waiting ⊢
    rw [OrderedDict.lookup_erase] at readable ⊢
    by_cases same : agent = agentId
    · subst same
      rcases readable with found | reading
      · rw [if_pos rfl] at found
        cases found
      · rw [settled number reading] at waiting
        cases waiting
    · rw [if_neg same] at readable ⊢
      exact isolated agent number readable message waiting

/-- A step of a tidy bus keeps it isolated exactly if it is settled. -/
theorem isolated_step_iff (tidy : Tidy bus.broker) (isolated : Isolated bus) (event : BusEvent) :
    Isolated (bus.step event) ↔ TenantSettled bus event := by
  cases event with
  | subscribe agentId workflowId tenant =>
      exact isolated_subscribe_iff tidy isolated agentId workflowId tenant
  | unsubscribe agentId => exact isolated_unsubscribe_iff isolated agentId
  | publish message freshAck =>
      exact iff_of_true (isolated_publish tidy isolated message freshAck) trivial
  | createWorkflow => exact iff_of_true isolated trivial
  | ack agentId messageId => exact iff_of_true isolated trivial
  | giveUp place =>
      exact iff_of_true (isolated.of_fewer (SameTables.refl _) fun _ _ _ same => same) trivial
  | waitForMessage agentId =>
      have same := broker_waitForMessage bus agentId
      refine iff_of_true (isolated.of_fewer ?_ fun agent n waiting member => ?_) trivial
      · rw [same]
        exact SameTables.refl _
      · rw [same] at member
        exact member
  | wake place =>
      exact iff_of_true
        (isolated.of_fewer (sameTables_wake bus place) fun _ _ _ => mem_held_of_wake) trivial
  | pendingMessages agentId =>
      refine iff_of_true (isolated.of_fewer (sameTables_pendingMessages bus.broker agentId)
        fun agent n waiting member => ?_) trivial
      have left : waiting ∈ (bus.broker.pendingMessages agentId).2.held agent n := member
      rw [held_pendingMessages] at left
      split at left
      · cases left
      · exact left

/-- Along a run from an empty broker, every message that is handed over, and every message
that could be, has its reader's tenant exactly if no subscription changes its tenant or ends
over messages that wait. -/
theorem isolated_throughout_iff (events : List BusEvent) :
    Throughout BusState.step Isolated {} events ∧
        StepsMeet BusState.step HandsOverOwnTenant {} events ↔
      StepsMeet BusState.step TenantSettled {} events := by
  have init : Isolated {} := fun agent number _ message waiting => by cases waiting
  refine throughout_and_stepsMeet_iff (fun bus => Tidy bus.broker) Isolated
    tidy_step ?_ tidy_empty init events
  intro bus event tidy isolated
  rw [isolated_step_iff tidy isolated event]
  exact and_iff_left (isolated.handsOver event)

/-- A subscription renewed under another tenant reads what was queued under the first. -/
theorem renewed_subscription_reads_other_tenant :
    ¬StepsMeet BusState.step HandsOverOwnTenant {}
      [.subscribe "a" "" "t1",
        .publish { messageId := "1", fromAgentId := "b", toAgentId := some "a", tenant := "t1" } "",
        .subscribe "a" "" "t2", .pendingMessages "a"] := by
  rintro ⟨-, -, -, reads, -⟩
  have own := reads ("a", _) List.mem_cons_self
  exact absurd (Option.some.inj own) (by decide)

end YouMi.Bus
