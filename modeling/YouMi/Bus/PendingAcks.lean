import YouMi.Bus.Tenants

/-!
# Pending acknowledgements

`_pending_acks` and the queues are changed by different operations.  A history keeps
beside the broker what has been published, delivered, received and acknowledged so
far, each by message and agent.  Along runs with distinct message identifiers the
pending entries are those of the messages that wait and of those that were read
without an acknowledgement, as long as no subscription with a pending entry ends and
no two waiting messages share a key.
-/

namespace YouMi.Bus

open YouMi.Library InProcessBroker

/-- The bus with what has happened on it; a pair is a message identifier and an agent. -/
structure AckHistory where
  bus : BusState := {}
  published : List String := []
  delivered : List (String × String) := []
  received : List (String × String) := []
  acknowledged : List (String × String) := []

namespace BusState

def publishedBy : BusEvent → List String
  | .publish message _ => [message.messageId]
  | _ => []

def deliveredBy (bus : BusState) : BusEvent → List (String × String)
  | .publish message _ =>
      ((bus.broker.resolveTargets message).filter (· ∈ bus.broker.queues.keys)).map
        ((message.messageId, ·))
  | _ => []

def receivedThrough (bus : BusState) (event : BusEvent) : List (String × String) :=
  (bus.received event).map fun handed => (handed.2.messageId, handed.1)

/-- `wait_for_message` acknowledges what it returns; `pending_messages` does not. -/
def acknowledgedBy (bus : BusState) : BusEvent → List (String × String)
  | .wake place =>
      ((bus.received (.wake place)).filter fun handed => handed.2.needsAck).map
        fun handed => (handed.2.messageId, handed.1)
  | .ack agentId messageId => [(messageId, agentId)]
  | _ => []

end BusState

namespace AckHistory

def step (history : AckHistory) (event : BusEvent) : AckHistory where
  bus := history.bus.step event
  published := history.published ++ BusState.publishedBy event
  delivered := history.delivered ++ history.bus.deliveredBy event
  received := history.received ++ history.bus.receivedThrough event
  acknowledged := history.acknowledged ++ history.bus.acknowledgedBy event

/-- Message identifiers are distinct, and an agent acknowledges what it has received. -/
def Proper (history : AckHistory) : BusEvent → Prop
  | .publish message _ => message.messageId ∉ history.published
  | .ack agentId messageId => (messageId, agentId) ∈ history.received
  | _ => True

/-- What holds after every proper run: each message stands at most once in what an agent
may read, and not at all once the agent has received it. -/
structure Sound (history : AckHistory) : Prop where
  tidy : Tidy history.bus.broker
  heldPublished : ∀ agent number, ∀ message ∈ history.bus.broker.held agent number,
    message.messageId ∈ history.published
  once : ∀ agent number, (history.bus.broker.held agent number).Pairwise
    fun first second => first.messageId ≠ second.messageId
  oneQueue : ∀ agent first second, ∀ message ∈ history.bus.broker.held agent first,
    ∀ other ∈ history.bus.broker.held agent second,
      message.messageId = other.messageId → first = second
  unreceived : ∀ agent number, ∀ message ∈ history.bus.broker.held agent number,
    (message.messageId, agent) ∉ history.received
  receivedPublished : ∀ receipt ∈ history.received, receipt.1 ∈ history.published
  acknowledgedReceived : ∀ receipt ∈ history.acknowledged, receipt ∈ history.received

/-- The pending entries and the queues fit: a waiting message that needs an
acknowledgement has its entry, and an entry is that of a subscribed agent to which the
message was delivered and which has not acknowledged it. -/
structure Accounted (history : AckHistory) : Prop where
  waiting : ∀ agent, ∀ message ∈ history.bus.broker.queueOf agent, message.needsAck = true →
    history.bus.broker.pendingAcks.lookup (ackKey message.messageId agent) = some message
  owed : ∀ key message, history.bus.broker.pendingAcks.lookup key = some message →
    ∃ agent, key = ackKey message.messageId agent ∧
      history.bus.broker.queues.lookup agent ≠ none ∧
      (message.messageId, agent) ∈ history.delivered ∧
      (message.messageId, agent) ∉ history.acknowledged

end AckHistory

/-- The key of the message and the agent is not also the key of another waiting message. -/
def KeyUnshared (broker : InProcessBroker) (messageId agentId : String) : Prop :=
  ∀ agent, ∀ message ∈ broker.queueOf agent, message.needsAck = true →
    ackKey message.messageId agent = ackKey messageId agentId → message.messageId = messageId

/-- A subscription ends only where nothing is pending for the agent, and an entry is
written or removed only under a key no other waiting message has. -/
def AcksFollow (history : AckHistory) : BusEvent → Prop
  | .unsubscribe agentId =>
      ∀ key message, history.bus.broker.pendingAcks.lookup key = some message →
        key ≠ ackKey message.messageId agentId
  | .publish message freshAck =>
      (message.stamp freshAck).needsAck = true →
        ∀ target ∈ history.bus.broker.resolveTargets message,
          history.bus.broker.queues.lookup target ≠ none →
            KeyUnshared history.bus.broker message.messageId target
  | .wake place =>
      ∀ handed ∈ history.bus.received (.wake place), handed.2.needsAck = true →
        KeyUnshared history.bus.broker handed.2.messageId handed.1
  | .ack agentId messageId => KeyUnshared history.bus.broker messageId agentId
  | _ => True

variable {history : AckHistory} {broker : InProcessBroker}

theorem ackKey_inj {messageId first second : String}
    (same : ackKey messageId first = ackKey messageId second) : first = second := by
  unfold ackKey at same
  exact (String.append_right_inj _).mp same

/-- What an agent would read stands in its queue object. -/
theorem mem_held_of_queueOf {agent : String} {message : WorkflowMessage}
    (waiting : message ∈ broker.queueOf agent) :
    ∃ number, broker.queues.lookup agent = some number ∧ message ∈ broker.held agent number := by
  cases found : broker.queues.lookup agent with
  | none =>
      rw [queueOf_of_missing found] at waiting
      cases waiting
  | some number =>
      rw [queueOf_of_lookup found] at waiting
      exact ⟨number, rfl, waiting⟩

/-! ## What has been received is gone -/

theorem received_pendingMessages (bus : BusState) (agentId : String) :
    bus.received (.pendingMessages agentId) = (bus.broker.queueOf agentId).map ((agentId, ·)) := by
  rw [← pendingMessages_fst]
  rfl

/-- Only a publication puts messages into queue objects. -/
theorem held_step_sublist (bus : BusState) {event : BusEvent}
    (quiet : ∀ message freshAck, event ≠ .publish message freshAck) (agent : String)
    (number : Nat) :
    ((bus.step event).broker.held agent number).Sublist (bus.broker.held agent number) := by
  cases event with
  | publish message freshAck => exact absurd rfl (quiet message freshAck)
  | subscribe agentId workflowId tenant =>
      unfold BusState.step
      rw [held_subscribe]
  | waitForMessage agentId =>
      rw [broker_waitForMessage]
  | wake place =>
      rcases wake_cases bus place with ⟨idle, -⟩ | ⟨agentId, n, _, _, -, taken, woken, -⟩
      · rw [idle]
      · rw [woken]
        obtain ⟨first, others⟩ := held_takeFirst taken
        by_cases here : agent = agentId ∧ number = n
        · obtain ⟨rfl, rfl⟩ := here
          rw [first]
          exact List.sublist_cons_self _ _
        · rw [others agent number here]
  | pendingMessages agentId =>
      have left := held_pendingMessages bus.broker agentId agent number
      unfold BusState.step
      rw [left]
      split
      · exact List.nil_sublist _
      · exact List.Sublist.refl _
  | unsubscribe agentId => exact List.Sublist.refl _
  | createWorkflow => exact List.Sublist.refl _
  | giveUp place => exact List.Sublist.refl _
  | ack agentId messageId => exact List.Sublist.refl _

/-- A message that an event hands over to an agent is in no queue object of the agent
afterwards. -/
theorem received_gone (sound : history.Sound) {event : BusEvent}
    {handed : String × WorkflowMessage} (member : handed ∈ history.bus.received event)
    {number : Nat} {message : WorkflowMessage}
    (left : message ∈ (history.bus.step event).broker.held handed.1 number) :
    message.messageId ≠ handed.2.messageId := by
  intro same
  cases event with
  | wake place =>
      rcases wake_cases history.bus place with
        ⟨-, nothing⟩ | ⟨agentId, n, taken_message, after, -, taken, woken, given⟩
      · rw [nothing] at member
        cases member
      · rw [given] at member
        rw [List.mem_singleton.mp member] at left same
        rw [woken] at left
        obtain ⟨first, others⟩ := held_takeFirst taken
        have head : taken_message ∈ history.bus.broker.held agentId n := by
          rw [first]
          exact List.mem_cons_self
        by_cases here : number = n
        · subst here
          have distinct := sound.once agentId number
          rw [first] at distinct
          exact (List.pairwise_cons.mp distinct).1 message left same.symm
        · rw [others agentId number fun both => here both.2] at left
          exact here (sound.oneQueue agentId number n message left taken_message head same)
  | pendingMessages agentId =>
      rw [received_pendingMessages] at member
      obtain ⟨first, waiting, rfl⟩ := List.mem_map.mp member
      obtain ⟨n, found, held⟩ := mem_held_of_queueOf waiting
      have after : message ∈ (history.bus.broker.pendingMessages agentId).2.held agentId number :=
        left
      rw [held_pendingMessages] at after
      split at after
      · cases after
      · rename_i other
        have sameQueue := sound.oneQueue agentId number n message after first held same
        exact other ⟨rfl, sameQueue ▸ found⟩
  | _ => cases member

namespace AckHistory

theorem sound_empty : Sound {} where
  tidy := tidy_empty
  heldPublished agent number message member := by cases member
  once agent number := List.Pairwise.nil
  oneQueue agent first second message member := by cases member
  unreceived agent number message member := by cases member
  receivedPublished receipt member := by cases member
  acknowledgedReceived receipt member := by cases member

/-- What an event acknowledges has been received before or is received by it. -/
theorem mem_received_of_acknowledgedBy {event : BusEvent} (proper : history.Proper event)
    {receipt : String × String} (member : receipt ∈ history.bus.acknowledgedBy event) :
    receipt ∈ history.received ++ history.bus.receivedThrough event := by
  cases event with
  | wake place =>
      refine List.mem_append_right _ ?_
      obtain ⟨handed, kept, same⟩ := List.mem_map.mp member
      exact List.mem_map.mpr ⟨handed, (List.mem_filter.mp kept).1, same⟩
  | ack agentId messageId =>
      refine List.mem_append_left _ ?_
      rw [List.mem_singleton.mp member]
      exact proper
  | _ => cases member

theorem acknowledgedReceived_step (sound : history.Sound) {event : BusEvent}
    (proper : history.Proper event) :
    ∀ receipt ∈ (history.step event).acknowledged, receipt ∈ (history.step event).received := by
  intro receipt member
  rcases List.mem_append.mp member with before | now
  · exact List.mem_append_left _ (sound.acknowledgedReceived receipt before)
  · exact mem_received_of_acknowledgedBy proper now

theorem receivedPublished_step (sound : history.Sound) (event : BusEvent) :
    ∀ receipt ∈ (history.step event).received, receipt.1 ∈ (history.step event).published := by
  intro receipt member
  refine List.mem_append_left _ ?_
  rcases List.mem_append.mp member with before | now
  · exact sound.receivedPublished receipt before
  · obtain ⟨handed, given, rfl⟩ := List.mem_map.mp now
    obtain ⟨number, -, held⟩ := received_from_readable given
    exact sound.heldPublished handed.1 number handed.2 held

/-- A publication puts a message with a new identifier at the end of some queues. -/
theorem sound_publish (sound : history.Sound) {message : WorkflowMessage} (freshAck : String)
    (unused : message.messageId ∉ history.published) :
    (history.step (.publish message freshAck)).Sound := by
  have same_id : (message.stamp freshAck).messageId = message.messageId := by
    rw [WorkflowMessage.stamp_content]
  have law := held_publish sound.tidy message freshAck
  have mem_after : ∀ {agent number m},
      m ∈ (history.step (.publish message freshAck)).bus.broker.held agent number →
        m ∈ history.bus.broker.held agent number ∨
          m = message.stamp freshAck ∧ history.bus.broker.queues.lookup agent = some number := by
    intro agent number m member
    have there : m ∈ (history.bus.broker.publish message freshAck).held agent number := member
    rw [law] at there
    rcases List.mem_append.mp there with old | new
    · exact .inl old
    · split at new
      · rename_i target
        exact .inr ⟨List.mem_singleton.mp new, target.2⟩
      · cases new
  have unheld : ∀ {agent number m}, m ∈ history.bus.broker.held agent number →
      m.messageId ≠ message.messageId := by
    intro agent number m held same
    exact unused (same ▸ sound.heldPublished agent number m held)
  refine ⟨tidy_publish sound.tidy message freshAck, ?_, ?_, ?_, ?_,
    receivedPublished_step sound _, acknowledgedReceived_step sound unused⟩
  · intro agent number m member
    rcases mem_after member with old | ⟨rfl, -⟩
    · exact List.mem_append_left _ (sound.heldPublished agent number m old)
    · rw [same_id]
      exact List.mem_append_right _ (List.mem_singleton.mpr rfl)
  · intro agent number
    have before := sound.once agent number
    change ((history.bus.broker.publish message freshAck).held agent number).Pairwise _
    rw [law]
    split
    · refine List.pairwise_append.mpr ⟨before, List.pairwise_singleton _ _, ?_⟩
      intro old held new member
      rw [List.mem_singleton.mp member, same_id]
      exact unheld held
    · rw [List.append_nil]
      exact before
  · intro agent first second m member other there same
    rcases mem_after member with old | ⟨rfl, found⟩ <;>
      rcases mem_after there with old' | ⟨rfl, found'⟩
    · exact sound.oneQueue agent first second m old other old' same
    · exact absurd (same.trans same_id) (unheld old)
    · exact absurd (same.symm.trans same_id) (unheld old')
    · exact Option.some.inj (found.symm.trans found')
  · intro agent number m member received
    have before : (m.messageId, agent) ∈ history.received := by
      rcases List.mem_append.mp received with before | now
      · exact before
      · cases now
    rcases mem_after member with old | ⟨rfl, -⟩
    · exact sound.unreceived agent number m old before
    · rw [same_id] at before
      exact unused (sound.receivedPublished _ before)

/-- Every other event only takes messages out of queue objects. -/
theorem sound_quiet (sound : history.Sound) {event : BusEvent}
    (quiet : ∀ message freshAck, event ≠ .publish message freshAck)
    (proper : history.Proper event) : (history.step event).Sound := by
  have mem_before : ∀ {agent number m},
      m ∈ (history.step event).bus.broker.held agent number →
        m ∈ history.bus.broker.held agent number :=
    fun member => (held_step_sublist history.bus quiet _ _).subset member
  refine ⟨tidy_step history.bus event sound.tidy, ?_, ?_, ?_, ?_,
    receivedPublished_step sound event, acknowledgedReceived_step sound proper⟩
  · intro agent number m member
    exact List.mem_append_left _ (sound.heldPublished agent number m (mem_before member))
  · intro agent number
    exact (sound.once agent number).sublist (held_step_sublist history.bus quiet agent number)
  · intro agent first second m member other there same
    exact sound.oneQueue agent first second m (mem_before member) other (mem_before there) same
  · intro agent number m member received
    rcases List.mem_append.mp received with before | now
    · exact sound.unreceived agent number m (mem_before member) before
    · obtain ⟨handed, given, same⟩ := List.mem_map.mp now
      obtain ⟨same_id, rfl⟩ := Prod.mk.inj same
      exact received_gone sound given member same_id.symm

theorem sound_step (history : AckHistory) (event : BusEvent) (sound : history.Sound)
    (proper : history.Proper event) : (history.step event).Sound := by
  by_cases quiet : ∀ message freshAck, event ≠ .publish message freshAck
  · exact sound_quiet sound quiet proper
  · push Not at quiet
    obtain ⟨message, freshAck, rfl⟩ := quiet
    exact sound_publish sound freshAck proper

/-! ## The entries and the queues -/

theorem accounted_empty : Accounted {} where
  waiting agent message member := by cases member
  owed key message found := by cases found

/-- An event that leaves the entries alone and neither ends a subscription, nor fills a
queue, nor acknowledges, keeps them fitting. -/
theorem Accounted.of_quiet {event : BusEvent} (accounted : history.Accounted)
    (entries : (history.bus.step event).broker.pendingAcks = history.bus.broker.pendingAcks)
    (fewer : ∀ agent, ∀ message ∈ (history.bus.step event).broker.queueOf agent,
      message ∈ history.bus.broker.queueOf agent)
    (subscribed : ∀ agent, history.bus.broker.queues.lookup agent ≠ none →
      (history.bus.step event).broker.queues.lookup agent ≠ none)
    (silent : history.bus.acknowledgedBy event = []) : (history.step event).Accounted where
  waiting agent message waits needs := by
    change (history.bus.step event).broker.pendingAcks.lookup _ = _
    rw [entries]
    exact accounted.waiting agent message (fewer agent message waits) needs
  owed key message found := by
    change (history.bus.step event).broker.pendingAcks.lookup _ = _ at found
    rw [entries] at found
    obtain ⟨agent, own, there, delivered, open_⟩ := accounted.owed key message found
    refine ⟨agent, own, subscribed agent there, List.mem_append_left _ delivered, ?_⟩
    intro acknowledged
    rcases List.mem_append.mp acknowledged with before | now
    · exact open_ before
    · rw [silent] at now
      cases now

/-- An acknowledgement removes the entry of one message and one agent, which no longer
waits there; no other waiting message may have its key. -/
theorem accounted_erase_iff {event : BusEvent} {messageId agentId : String}
    (accounted : history.Accounted)
    (entries : (history.bus.step event).broker.pendingAcks =
      history.bus.broker.pendingAcks.erase (ackKey messageId agentId))
    (queues : (history.bus.step event).broker.queues = history.bus.broker.queues)
    (fewer : ∀ agent, ∀ message ∈ (history.bus.step event).broker.queueOf agent,
      message ∈ history.bus.broker.queueOf agent)
    (kept : ∀ agent, ∀ message ∈ history.bus.broker.queueOf agent,
      message.messageId ≠ messageId → message ∈ (history.bus.step event).broker.queueOf agent)
    (gone : ∀ message ∈ (history.bus.step event).broker.queueOf agentId,
      message.messageId ≠ messageId)
    (acknowledges : history.bus.acknowledgedBy event = [(messageId, agentId)]) :
    (history.step event).Accounted ↔ KeyUnshared history.bus.broker messageId agentId := by
  constructor
  · intro after agent message waits needs same
    by_contra other
    have found := after.waiting agent message (kept agent message waits other) needs
    change (history.bus.step event).broker.pendingAcks.lookup _ = _ at found
    rw [entries, same, OrderedDict.lookup_erase_self] at found
    cases found
  · intro unshared
    constructor
    · intro agent message waits needs
      change (history.bus.step event).broker.pendingAcks.lookup _ = _
      rw [entries, OrderedDict.lookup_erase]
      split
      · rename_i same
        have same_id := unshared agent message (fewer agent message waits) needs same
        rw [same_id] at same
        rw [ackKey_inj same] at waits
        exact absurd same_id (gone message waits)
      · exact accounted.waiting agent message (fewer agent message waits) needs
    · intro key message found
      change (history.bus.step event).broker.pendingAcks.lookup _ = _ at found
      rw [entries, OrderedDict.lookup_erase] at found
      split at found
      · cases found
      · rename_i other
        obtain ⟨agent, rfl, there, delivered, open_⟩ := accounted.owed key message found
        refine ⟨agent, rfl, ?_, List.mem_append_left _ delivered, ?_⟩
        · change (history.bus.step event).broker.queues.lookup agent ≠ none
          rw [queues]
          exact there
        · intro acknowledged
          rcases List.mem_append.mp acknowledged with before | now
          · exact open_ before
          · rw [acknowledges] at now
            obtain ⟨rfl, rfl⟩ := Prod.mk.inj (List.mem_singleton.mp now)
            exact other rfl

theorem accounted_ack_iff (sound : history.Sound) (accounted : history.Accounted)
    {agentId messageId : String} (received : (messageId, agentId) ∈ history.received) :
    (history.step (.ack agentId messageId)).Accounted ↔
      KeyUnshared history.bus.broker messageId agentId := by
  refine accounted_erase_iff accounted rfl rfl (fun _ _ waits => waits)
    (fun _ _ waits _ => waits) ?_ rfl
  intro message waits same
  obtain ⟨number, -, held⟩ := mem_held_of_queueOf waits
  exact sound.unreceived agentId number message held (same ▸ received)

theorem accounted_wake_iff (sound : history.Sound) (accounted : history.Accounted)
    (place : Nat) :
    (history.step (.wake place)).Accounted ↔
      ∀ handed ∈ history.bus.received (.wake place), handed.2.needsAck = true →
        KeyUnshared history.bus.broker handed.2.messageId handed.1 := by
  have acknowledges : history.bus.acknowledgedBy (.wake place) =
      ((history.bus.received (.wake place)).filter fun handed => handed.2.needsAck).map
        fun handed => (handed.2.messageId, handed.1) := rfl
  rcases wake_cases history.bus place with
    ⟨idle, nothing⟩ | ⟨agentId, number, message, after, -, taken, woken, given⟩
  · rw [nothing] at acknowledges ⊢
    refine iff_of_true (accounted.of_quiet ?_ ?_ ?_ acknowledges) fun _ member => nomatch member
    · rw [idle]
    · rw [idle]
      exact fun _ _ waits => waits
    · rw [idle]
      exact fun _ there => there
  · have queues : (history.bus.step (.wake place)).broker.queues = history.bus.broker.queues :=
      (sameTables_wake history.bus place).queues
    have reads : ∀ agent, (history.bus.step (.wake place)).broker.queueOf agent =
        if agent = agentId ∧ history.bus.broker.queues.lookup agent = some number then
          (history.bus.broker.queueOf agent).tail
        else history.bus.broker.queueOf agent := by
      rw [woken]
      exact queueOf_takeFirst taken
    have entries := pendingAcks_takeFirst taken
    have fewer : ∀ agent, ∀ m ∈ (history.bus.step (.wake place)).broker.queueOf agent,
        m ∈ history.bus.broker.queueOf agent := by
      intro agent m waits
      rw [reads] at waits
      split at waits
      · exact List.mem_of_mem_tail waits
      · exact waits
    have handed_over : (agentId, message) ∈ history.bus.received (.wake place) := by
      rw [given]
      exact List.mem_singleton.mpr rfl
    rw [given] at acknowledges
    simp only [given, List.mem_singleton, forall_eq]
    by_cases needs : message.needsAck = true
    · rw [if_pos needs] at entries
      simp only [needs, forall_const]
      refine accounted_erase_iff accounted ?_ queues fewer ?_ ?_ ?_
      · rw [woken]
        exact entries
      · intro agent m waits other
        rw [reads]
        split
        · rename_i own
          obtain ⟨rfl, found⟩ := own
          rw [queueOf_of_lookup found, (held_takeFirst taken).1] at waits ⊢
          rcases List.mem_cons.mp waits with rfl | later
          · exact absurd rfl other
          · exact later
        · exact waits
      · intro m waits
        obtain ⟨n, -, held⟩ := mem_held_of_queueOf waits
        exact received_gone sound handed_over held
      · rw [acknowledges]
        simp [needs]
    · rw [if_neg needs] at entries
      refine iff_of_true (accounted.of_quiet ?_ fewer ?_ ?_) fun yes => absurd yes needs
      · rw [woken]
        exact entries
      · rw [queues]
        exact fun _ there => there
      · rw [acknowledges]
        simp [needs]

theorem accounted_unsubscribe_iff (accounted : history.Accounted) (agentId : String) :
    (history.step (.unsubscribe agentId)).Accounted ↔
      AcksFollow history (.unsubscribe agentId) := by
  have queues : ∀ agent, (history.bus.broker.unsubscribe agentId).queues.lookup agent =
      if agent = agentId then none else history.bus.broker.queues.lookup agent :=
    fun agent => OrderedDict.lookup_erase
  constructor
  · rintro after key message found rfl
    obtain ⟨agent, same, there, -⟩ := after.owed _ message found
    change (history.bus.broker.unsubscribe agentId).queues.lookup agent ≠ none at there
    rw [queues, if_pos (ackKey_inj same).symm] at there
    exact there rfl
  · intro unowed
    constructor
    · intro agent message waits needs
      change message ∈ (history.bus.broker.unsubscribe agentId).queueOf agent at waits
      by_cases own : agent = agentId
      · subst own
        rw [queueOf_unsubscribe_self] at waits
        cases waits
      · rw [queueOf_unsubscribe_ne _ own] at waits
        exact accounted.waiting agent message waits needs
    · intro key message found
      obtain ⟨agent, rfl, there, delivered, open_⟩ := accounted.owed key message found
      have other : agent ≠ agentId := by
        rintro rfl
        exact unowed _ message found rfl
      refine ⟨agent, rfl, ?_, List.mem_append_left _ delivered, ?_⟩
      · change (history.bus.broker.unsubscribe agentId).queues.lookup agent ≠ none
        rw [queues, if_neg other]
        exact there
      · intro acknowledged
        rcases List.mem_append.mp acknowledged with before | now
        · exact open_ before
        · cases now

/-- A message with a new identifier is not one that is still waiting. -/
theorem unread_of_unused (sound : history.Sound) {messageId : String}
    (unused : messageId ∉ history.published) {agent : String} {waiting : WorkflowMessage}
    (waits : waiting ∈ history.bus.broker.queueOf agent) : waiting.messageId ≠ messageId := by
  intro same
  obtain ⟨number, -, held⟩ := mem_held_of_queueOf waits
  exact unused (same ▸ sound.heldPublished agent number waiting held)

theorem accounted_publish (sound : history.Sound) (accounted : history.Accounted)
    {message : WorkflowMessage} {freshAck : String}
    (unused : message.messageId ∉ history.published)
    (unshared : AcksFollow history (.publish message freshAck)) :
    (history.step (.publish message freshAck)).Accounted := by
  have same_id : (message.stamp freshAck).messageId = message.messageId := by
    rw [WorkflowMessage.stamp_content]
  have entries := lookup_pendingAcks_publish history.bus.broker message freshAck
  have reads := queueOf_publish sound.tidy message freshAck
  have queues := (sameTables_publish history.bus.broker message freshAck).queues
  constructor
  · intro agent waiting waits needs
    change waiting ∈ (history.bus.broker.publish message freshAck).queueOf agent at waits
    change (history.bus.broker.publish message freshAck).pendingAcks.lookup _ = _
    rw [entries]
    rw [reads] at waits
    rcases List.mem_append.mp waits with before | now
    · rw [if_neg ?_]
      · exact accounted.waiting agent waiting before needs
      · rintro ⟨needsAck, target, isTarget, there, same⟩
        exact unread_of_unused sound unused before
          (unshared needsAck target isTarget there agent waiting before needs same)
    · split at now
      · rename_i target
        obtain rfl := List.mem_singleton.mp now
        exact if_pos ⟨needs, agent, target.1, target.2, by rw [same_id]⟩
      · cases now
  · intro key waiting found
    change (history.bus.broker.publish message freshAck).pendingAcks.lookup _ = _ at found
    rw [entries] at found
    have subscribed : ∀ agent, history.bus.broker.queues.lookup agent ≠ none →
        (history.bus.broker.publish message freshAck).queues.lookup agent ≠ none := by
      rw [queues]
      exact fun _ there => there
    split at found
    · rename_i new
      obtain ⟨-, target, isTarget, there, rfl⟩ := new
      obtain rfl := Option.some.inj found
      rw [same_id]
      refine ⟨target, rfl, subscribed target there, List.mem_append_right _ ?_, ?_⟩
      · refine List.mem_map.mpr ⟨target, List.mem_filter.mpr ⟨isTarget, ?_⟩, rfl⟩
        exact decide_eq_true (mem_queueKeys_iff.mpr there)
      · intro acknowledged
        rcases List.mem_append.mp acknowledged with before | now
        · exact unused (sound.receivedPublished _ (sound.acknowledgedReceived _ before))
        · cases now
    · obtain ⟨agent, own, there, delivered, open_⟩ := accounted.owed key waiting found
      refine ⟨agent, own, subscribed agent there, List.mem_append_left _ delivered, ?_⟩
      intro acknowledged
      rcases List.mem_append.mp acknowledged with before | now
      · exact open_ before
      · cases now

theorem accounted_publish_iff (sound : history.Sound) (accounted : history.Accounted)
    {message : WorkflowMessage} {freshAck : String}
    (unused : message.messageId ∉ history.published) :
    (history.step (.publish message freshAck)).Accounted ↔
      AcksFollow history (.publish message freshAck) := by
  refine ⟨?_, accounted_publish sound accounted unused⟩
  intro after needsAck target isTarget there agent waiting waits needs same
  -- A shared key would now lead to the new message, which is not the one that waits.
  by_contra other
  have later : waiting ∈ (history.bus.broker.publish message freshAck).queueOf agent := by
    rw [queueOf_publish sound.tidy message freshAck]
    exact List.mem_append_left _ waits
  have found := after.waiting agent waiting later needs
  change (history.bus.broker.publish message freshAck).pendingAcks.lookup _ = _ at found
  rw [lookup_pendingAcks_publish, if_pos ⟨needsAck, target, isTarget, there, same⟩] at found
  have equal := Option.some.inj found
  rw [← equal, WorkflowMessage.stamp_content] at other
  exact other rfl

theorem accounted_step_iff (sound : history.Sound) (accounted : history.Accounted)
    (event : BusEvent) (proper : history.Proper event) :
    (history.step event).Accounted ↔ AcksFollow history event := by
  cases event with
  | unsubscribe agentId => exact accounted_unsubscribe_iff accounted agentId
  | publish message freshAck => exact accounted_publish_iff sound accounted proper
  | wake place => exact accounted_wake_iff sound accounted place
  | ack agentId messageId => exact accounted_ack_iff sound accounted proper
  | subscribe agentId workflowId tenant =>
      refine iff_of_true (accounted.of_quiet (pendingAcks_subscribe ..) ?_ ?_ rfl) trivial
      · intro agent message waits
        have same : (history.bus.broker.subscribe agentId workflowId tenant).queueOf agent =
            history.bus.broker.queueOf agent :=
          queueOf_subscribe sound.tidy agentId workflowId tenant
        exact same ▸ waits
      · intro agent there
        change (history.bus.broker.subscribe agentId workflowId tenant).queues.lookup agent ≠ none
        rw [queues_subscribe]
        split
        · exact Option.some_ne_none _
        · exact there
  | waitForMessage agentId =>
      have same := broker_waitForMessage history.bus agentId
      refine iff_of_true (accounted.of_quiet ?_ ?_ ?_ rfl) trivial
      · rw [same]
      · rw [same]
        exact fun _ _ waits => waits
      · rw [same]
        exact fun _ there => there
  | pendingMessages agentId =>
      have same := sameTables_pendingMessages history.bus.broker agentId
      refine iff_of_true (accounted.of_quiet ?_ ?_ ?_ rfl) trivial
      · change (history.bus.broker.pendingMessages agentId).2.pendingAcks = _
        unfold pendingMessages
        split <;> rfl
      · intro agent message waits
        change message ∈ (history.bus.broker.pendingMessages agentId).2.queueOf agent at waits
        obtain ⟨number, found, held⟩ := mem_held_of_queueOf waits
        rw [same.queues] at found
        rw [held_pendingMessages] at held
        rw [queueOf_of_lookup found]
        split at held
        · cases held
        · exact held
      · change ∀ agent, _ →
          (history.bus.broker.pendingMessages agentId).2.queues.lookup agent ≠ none
        rw [same.queues]
        exact fun _ there => there
  | createWorkflow =>
      exact iff_of_true (accounted.of_quiet rfl (fun _ _ waits => waits) (fun _ there => there) rfl)
        trivial
  | giveUp place =>
      exact iff_of_true (accounted.of_quiet rfl (fun _ _ waits => waits) (fun _ there => there) rfl)
        trivial

/-- Along a run with distinct message identifiers, in which agents acknowledge what they
have received, the pending entries fit throughout exactly if no subscription with a
pending entry ends and no entry's key is shared. -/
theorem pending_acks_iff (events : List BusEvent)
    (proper : StepsMeet step Proper {} events) :
    Throughout step Accounted {} events ↔ StepsMeet step AcksFollow {} events :=
  throughout_iff_stepsMeet_of_allowed Sound Accounted Proper sound_step
    (fun _ event sound accounted proper => accounted_step_iff sound accounted event proper)
    sound_empty accounted_empty proper

/-- A task is delivered to an agent, which leaves without reading it. -/
def leavesUnread : List BusEvent :=
  [.subscribe "a" "" "default",
    .publish { messageId := "m", toAgentId := some "a", msgType := .task } "k",
    .unsubscribe "a"]

theorem leavesUnread_proper : StepsMeet step Proper {} leavesUnread :=
  ⟨trivial, by simp [Proper, step, BusState.publishedBy], trivial, trivial⟩

theorem pending_acks_iff_leavesUnread :
    Throughout step Accounted {} leavesUnread ↔ StepsMeet step AcksFollow {} leavesUnread :=
  pending_acks_iff leavesUnread leavesUnread_proper

/-- The entry of an agent that left stays. -/
theorem entry_outlives_subscription :
    StepsMeet step Proper {} leavesUnread ∧ ¬Throughout step Accounted {} leavesUnread := by
  refine ⟨leavesUnread_proper, ?_⟩
  intro always
  obtain ⟨agent, -, subscribed, -⟩ := (always 3).owed (ackKey "m" "a") _ rfl
  exact subscribed rfl

end AckHistory

end YouMi.Bus
