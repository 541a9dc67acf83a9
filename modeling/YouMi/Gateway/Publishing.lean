import YouMi.Gateway.WorkerPool

/-!
# Publishing a snapshot

A client that comes while its task is unfinished is subscribed until the end of the task,
and the subscribers of a task are the clients it still owes snapshots.  A step that
publishes keeps this: each subscriber is sent the snapshot, and nobody else anything.
-/

namespace YouMi.Gateway.GatewayService

open YouMi.Library

/-! ## What is expected -/

/-- The task that was last submitted under the identifier, among the first `count`. -/
def latest (s : GatewayService) : Nat → String → Option Ref
  | 0, _ => none
  | count + 1, taskId =>
      if (s.records count).taskId = taskId then some count else s.latest count taskId

/-- The snapshots of a record that have been published, but for the first `since` of all. -/
def snapshots (s : GatewayService) (ref : Ref) (since : Nat) : List TaskRecord :=
  ((s.published.drop since).filter fun entry => entry.1 = ref).map Prod.snd

/-- The record was finished when `since` snapshots had been published. -/
def FinishedBefore (s : GatewayService) (ref : Ref) (since : Nat) : Prop :=
  ∃ entry ∈ s.published.take since, entry.1 = ref ∧ entry.2.status.finished = true

/-- What the client of a task has been sent. -/
structure Served (s : GatewayService) (client : Client) (ref : Ref) : Prop where
  /-- It came before the end of the task: every snapshot since, up to the terminal one. -/
  before : ¬FinishedBefore s ref client.publishedBefore →
    client.frames = (s.snapshots ref client.publishedBefore).map some ++
      (if s.finished ref then [none] else []) ∧
    (s.finished ref = true → ∃ earlier,
      s.snapshots ref client.publishedBefore = earlier ++ [s.records ref])
  /-- It came after: the terminal snapshot. -/
  after : FinishedBefore s ref client.publishedBefore →
    s.finished ref = true ∧ client.frames = [some (s.records ref), none]

/-- Every client whose stream has begun is served for the task it came for. -/
def AllServed (s : GatewayService) : Prop :=
  ∀ client ∈ s.events.clients, client.stage = .open →
    ∀ ref, s.latest client.tasksBefore client.taskId = some ref → Served s client ref

/-- A task comes under an identifier that no unfinished one has, and the stream of a closed
task begins while the registry still has the record, finished. -/
def ServesStreams (s : GatewayService) : Action → Prop
  | .submit submission => ∀ ref < s.created,
      (s.records ref).taskId = submission.record.taskId → s.finished ref = true
  | .client (.openStream client) => ∀ c, s.events.clients[client]? = some c →
      c.taskId ∈ s.events.closed →
        ∃ record, s.get c.taskId = some record ∧ record.status.finished = true
  | _ => True

/-! ## Tasks and snapshots -/

section Tasks

variable {s t : GatewayService} {count ref other since : Nat} {taskId : String}

/-- What is found is below the bound and has the identifier. -/
theorem latest_spec (found : s.latest count taskId = some ref) :
    ref < count ∧ (s.records ref).taskId = taskId := by
  induction count with
  | zero => cases found
  | succ count ih =>
      unfold latest at found
      split at found
      · rename_i same
        cases found
        exact ⟨Nat.lt_succ_self _, same⟩
      · obtain ⟨below, same⟩ := ih found
        exact ⟨Nat.lt_succ_of_lt below, same⟩

theorem latest_congr (same : ∀ ref < count, (t.records ref).taskId = (s.records ref).taskId) :
    t.latest count taskId = s.latest count taskId := by
  induction count with
  | zero => rfl
  | succ count ih =>
      unfold latest
      rw [same count (Nat.lt_succ_self count),
        ih fun ref below => same ref (Nat.lt_succ_of_lt below)]

/-- A snapshot is published. -/
theorem snapshots_append {record : TaskRecord}
    (published : t.published = s.published ++ [(ref, record)])
    (within : since ≤ s.published.length) :
    t.snapshots other since =
      s.snapshots other since ++ if ref = other then [record] else [] := by
  unfold snapshots
  rw [published, List.drop_append_of_le_length within, List.filter_append, List.map_append]
  by_cases same : ref = other
  · simp [same]
  · simp [same]

theorem finishedBefore_append {extra : List (Ref × TaskRecord)}
    (published : t.published = s.published ++ extra) (within : since ≤ s.published.length) :
    FinishedBefore t other since ↔ FinishedBefore s other since := by
  unfold FinishedBefore
  rw [published, List.take_append_of_le_length within]

end Tasks

/-! ## The invariant -/

/-- A client with the task it came for: it is subscribed as long as the task is unfinished. -/
structure Streaming (s : GatewayService) (index : Nat) (client : Client) (ref : Ref) : Prop where
  before : ¬FinishedBefore s ref client.publishedBefore →
    client.frames = (s.snapshots ref client.publishedBefore).map some ++
      (if s.finished ref then [none] else []) ∧
    (index ∈ s.events.subscribed client.taskId ↔ s.finished ref = false)
  after : FinishedBefore s ref client.publishedBefore →
    s.finished ref = true ∧ client.frames = [some (s.records ref), none] ∧
      index ∉ s.events.subscribed client.taskId

structure ClientInv (s : GatewayService) (index : Nat) (client : Client) : Prop where
  tasks : client.tasksBefore ≤ s.created
  published : client.publishedBefore ≤ s.published.length
  requested : client.stage = .requested → client.frames = []
  streaming : client.stage = .open → ∀ ref,
    s.latest client.tasksBefore client.taskId = some ref → Streaming s index client ref

/-- Subscribers are clients whose stream has begun, each once. -/
structure HubInv (s : GatewayService) : Prop where
  subscribed : ∀ taskId, ∀ index ∈ s.events.subscribed taskId, ∃ client,
    s.events.clients[index]? = some client ∧ client.stage = .open ∧ client.taskId = taskId
  nodup : ∀ taskId, (s.events.subscribed taskId).Nodup
  clients : ∀ index client, s.events.clients[index]? = some client → ClientInv s index client

structure TaskInv (s : GatewayService) : Prop where
  current : ∀ ref < s.created, (s.snapshots ref 0).getLast? = some (s.records ref)
  unique : ∀ ref < s.created, ∀ other < s.created, s.finished ref = false →
    s.finished other = false → (s.records ref).taskId = (s.records other).taskId → ref = other
  closed : ∀ ref < s.created, s.finished ref = true →
    (s.records ref).taskId ∈ s.events.closed
  valid : s.serviceRegistry < s.registries.length
  registered : ∀ ref < s.created, s.finished ref = false →
    (s.registry s.serviceRegistry).get (s.records ref).taskId = some ref
  stored : ∀ taskId ref, (s.registry s.serviceRegistry).get taskId = some ref →
    s.latest s.created taskId = some ref

/-! ## Steps that publish -/

/-- What a client is sent of a snapshot that is published: it, and the end if it is terminal. -/
def sent (s : GatewayService) (record : TaskRecord) (index : Nat) : List Frame :=
  if index ∈ s.events.subscribed record.taskId then
    some record :: if record.status.finished then [none] else []
  else []

/-- One record, new or unfinished so far, gets a value and is published with it, and is
closed if it is finished by that. -/
structure Notifies (s t : GatewayService) (ref : Ref) (record : TaskRecord) : Prop where
  kind : ref = s.created ∧ t.created = s.created + 1 ∨
    ref < s.created ∧ t.created = s.created ∧ s.finished ref = false ∧
      record.taskId = (s.records ref).taskId
  unique : ∀ other < s.created, s.finished other = false →
    (s.records other).taskId = record.taskId → other = ref
  records : t.records = Function.update s.records ref record
  published : t.published = s.published ++ [(ref, record)]
  subscribed : ∀ taskId, t.events.subscribed taskId =
    if record.status.finished = true ∧ taskId = record.taskId then []
    else s.events.subscribed taskId
  clients : ∀ index : Nat, t.events.clients[index]? =
    (s.events.clients[index]?).map (·.send (s.sent record index))
  closed : ∀ taskId, taskId ∈ t.events.closed ↔
    record.status.finished = true ∧ taskId = record.taskId ∨ taskId ∈ s.events.closed
  /-- The registry of the service gets the record, or does when it is new. -/
  registry : t.registry t.serviceRegistry =
      (s.registry s.serviceRegistry).put t.finished record.taskId ref ∨
    t.registry t.serviceRegistry = s.registry s.serviceRegistry ∧ ref < s.created
  valid : s.serviceRegistry < s.registries.length → t.serviceRegistry < t.registries.length

namespace Notifies

variable {s t : GatewayService} {ref other : Ref} {record : TaskRecord}

theorem created_le (notifies : Notifies s t ref record) : s.created ≤ t.created := by
  rcases notifies.kind with ⟨_, grown⟩ | ⟨_, same, _⟩
  · exact grown ▸ Nat.le_succ _
  · exact Nat.le_of_eq same.symm

/-- What is there afterwards was there, or is the record. -/
theorem lt_of_ne (notifies : Notifies s t ref record) (below : other < t.created)
    (ne : other ≠ ref) : other < s.created := by
  rcases notifies.kind with ⟨same, grown⟩ | ⟨_, same, _⟩
  · rw [grown] at below
    exact Nat.lt_of_le_of_ne (Nat.le_of_lt_succ below) fun last => ne (last.trans same.symm)
  · exact same ▸ below

theorem records_self (notifies : Notifies s t ref record) : t.records ref = record := by
  rw [notifies.records, Function.update_self]

theorem records_of_ne (notifies : Notifies s t ref record) (ne : other ≠ ref) :
    t.records other = s.records other := by
  rw [notifies.records, Function.update_of_ne ne]

theorem finished_of_ne (notifies : Notifies s t ref record) (ne : other ≠ ref) :
    t.finished other = s.finished other := by
  unfold finished
  rw [notifies.records_of_ne ne]

theorem taskId_eq (notifies : Notifies s t ref record) (below : other < s.created) :
    (t.records other).taskId = (s.records other).taskId := by
  by_cases same : other = ref
  · subst same
    rw [notifies.records_self]
    rcases notifies.kind with ⟨fresh, _⟩ | ⟨_, _, _, kept⟩
    · exact absurd fresh (Nat.ne_of_lt below)
    · exact kept
  · rw [notifies.records_of_ne same]

theorem latest_eq (notifies : Notifies s t ref record) {count : Nat} (within : count ≤ s.created)
    {taskId : String} : t.latest count taskId = s.latest count taskId :=
  latest_congr fun _ below => notifies.taskId_eq (Nat.lt_of_lt_of_le below within)

section Client

variable {index : Nat} {client : Client}

/-- The task of a client is published. -/
theorem streaming_self (notifies : Notifies s t ref record) (below : ref < s.created)
    (named : (s.records ref).taskId = client.taskId)
    (published : client.publishedBefore ≤ s.published.length)
    (streaming : Streaming s index client ref) :
    Streaming t index (client.send (s.sent record index)) ref := by
  have unfinished : s.finished ref = false := by
    rcases notifies.kind with ⟨fresh, _⟩ | ⟨_, _, unfinished, _⟩
    · exact absurd fresh (Nat.ne_of_lt below)
    · exact unfinished
  have same_id : record.taskId = client.taskId := by
    rw [← notifies.records_self, notifies.taskId_eq below]
    exact named
  have finishedBefore : FinishedBefore t ref client.publishedBefore ↔
      FinishedBefore s ref client.publishedBefore :=
    finishedBefore_append notifies.published published
  refine ⟨fun still => ?_, fun isOver => ?_⟩
  · obtain ⟨frames, awaits⟩ := streaming.before fun isOver => still (finishedBefore.mpr isOver)
    have member : index ∈ s.events.subscribed record.taskId := by
      rw [same_id]
      exact awaits.mpr unfinished
    have isOver : t.finished ref = record.status.finished := by
      rw [finished, notifies.records_self]
    change (client.send (s.sent record index)).frames =
        (t.snapshots ref client.publishedBefore).map some ++
          (if t.finished ref = true then [none] else []) ∧
      (index ∈ t.events.subscribed client.taskId ↔ t.finished ref = false)
    rw [Client.frames_send, frames, notifies.subscribed,
      snapshots_append notifies.published published, isOver, unfinished, same_id]
    unfold sent
    rw [if_pos member]
    cases record.status.finished with
    | false => simpa using awaits.mpr unfinished
    | true => simp
  · rw [(streaming.after (finishedBefore.mp isOver)).1] at unfinished
    cases unfinished

/-- Another task is published: the client is not among those who are sent it. -/
theorem streaming_of_ne (notifies : Notifies s t ref record) (below : other < s.created)
    (ne : other ≠ ref) (named : (s.records other).taskId = client.taskId)
    (published : client.publishedBefore ≤ s.published.length)
    (own : ∀ taskId, index ∈ s.events.subscribed taskId → client.taskId = taskId)
    (streaming : Streaming s index client other) :
    Streaming t index (client.send (s.sent record index)) other := by
  have finishedBefore : FinishedBefore t other client.publishedBefore ↔
      FinishedBefore s other client.publishedBefore :=
    finishedBefore_append notifies.published published
  -- The identifier of the record is that of no other task that is unfinished.
  have over_of_same : client.taskId = record.taskId → s.finished other = true := by
    intro same
    by_contra unfinished
    exact ne (notifies.unique other below (Bool.eq_false_iff.mpr unfinished) (named.trans same))
  have absent : index ∉ s.events.subscribed record.taskId := by
    intro member
    have same := own _ member
    have isOver := over_of_same same
    by_cases before : FinishedBefore s other client.publishedBefore
    · exact (streaming.after before).2.2 (same ▸ member)
    · have unfinished := (streaming.before before).2.mp (same ▸ member)
      rw [unfinished] at isOver
      cases isOver
  have kept : (client.send (s.sent record index)).frames = client.frames := by
    rw [Client.frames_send]
    unfold sent
    rw [if_neg absent, List.append_nil]
  refine ⟨fun still => ?_, fun isOver => ?_⟩
  · obtain ⟨frames, awaits⟩ := streaming.before fun isOver => still (finishedBefore.mpr isOver)
    rw [kept, frames, notifies.finished_of_ne ne]
    change _ = (t.snapshots other client.publishedBefore).map some ++ _ ∧
      (index ∈ t.events.subscribed client.taskId ↔ _)
    rw [snapshots_append notifies.published published, if_neg (Ne.symm ne), notifies.subscribed]
    refine ⟨by rw [List.append_nil], ?_⟩
    split
    · rename_i closes
      simp [over_of_same closes.2]
    · exact awaits
  · obtain ⟨ended, frames, away⟩ := streaming.after (finishedBefore.mp isOver)
    refine ⟨(notifies.finished_of_ne ne).trans ended, ?_, ?_⟩
    · rw [kept, frames, notifies.records_of_ne ne]
    · change index ∉ t.events.subscribed client.taskId
      rw [notifies.subscribed]
      split
      · exact List.not_mem_nil
      · exact away

theorem clientInv (notifies : Notifies s t ref record) (hub : HubInv s)
    (there : s.events.clients[index]? = some client) :
    ClientInv t index (client.send (s.sent record index)) := by
  have inv := hub.clients index client there
  have own : ∀ taskId, index ∈ s.events.subscribed taskId →
      client.stage = .open ∧ client.taskId = taskId := by
    intro taskId member
    obtain ⟨other, found, opened, same⟩ := hub.subscribed taskId index member
    rw [there] at found
    cases found
    exact ⟨opened, same⟩
  refine ⟨Nat.le_trans inv.tasks notifies.created_le, ?_, fun requested => ?_,
    fun opened task found => ?_⟩
  · rw [notifies.published, List.length_append]
    exact Nat.le_add_right_of_le inv.published
  · have absent : index ∉ s.events.subscribed record.taskId := by
      intro member
      have opened := (own _ member).1
      rw [show client.stage = .requested from requested] at opened
      cases opened
    rw [Client.frames_send, inv.requested requested]
    exact if_neg absent
  · change t.latest client.tasksBefore client.taskId = some task at found
    rw [notifies.latest_eq inv.tasks] at found
    have streaming := inv.streaming opened task found
    obtain ⟨before_task, named⟩ := latest_spec found
    have below : task < s.created := Nat.lt_of_lt_of_le before_task inv.tasks
    by_cases same : task = ref
    · subst same
      exact notifies.streaming_self below named inv.published streaming
    · exact notifies.streaming_of_ne below same named inv.published
        (fun taskId member => (own taskId member).2) streaming

theorem hubInv (notifies : Notifies s t ref record) (hub : HubInv s) : HubInv t where
  subscribed := by
    intro taskId index member
    rw [notifies.subscribed] at member
    split at member
    · exact absurd member List.not_mem_nil
    · obtain ⟨client, there, opened, same⟩ := hub.subscribed taskId index member
      refine ⟨client.send (s.sent record index), ?_, opened, same⟩
      rw [notifies.clients, there]
      rfl
  nodup := by
    intro taskId
    rw [notifies.subscribed]
    split
    · exact List.nodup_nil
    · exact hub.nodup taskId
  clients := by
    intro index client there
    rw [notifies.clients, Option.map_eq_some_iff] at there
    obtain ⟨old, found, rfl⟩ := there
    exact notifies.clientInv hub found

end Client

section Task

theorem latest_self (notifies : Notifies s t ref record) (tasks : TaskInv s) :
    t.latest t.created record.taskId = some ref := by
  rcases notifies.kind with ⟨fresh, grown⟩ | ⟨below, same, unfinished, named⟩
  · rw [grown, latest, ← fresh, notifies.records_self, if_pos rfl]
  · rw [same, notifies.latest_eq (Nat.le_refl _), named]
    exact tasks.stored _ ref (tasks.registered ref below unfinished)

theorem latest_of_ne (notifies : Notifies s t ref record) {taskId : String}
    (ne : taskId ≠ record.taskId) : t.latest t.created taskId = s.latest s.created taskId := by
  rcases notifies.kind with ⟨fresh, grown⟩ | ⟨_, same, _⟩
  · rw [grown, latest, ← fresh, notifies.records_self, if_neg (Ne.symm ne), fresh]
    exact notifies.latest_eq (Nat.le_refl _)
  · rw [same]
    exact notifies.latest_eq (Nat.le_refl _)

theorem current (notifies : Notifies s t ref record) (tasks : TaskInv s) (below : other < t.created) :
    (t.snapshots other 0).getLast? = some (t.records other) := by
  rw [snapshots_append notifies.published (Nat.zero_le _)]
  by_cases same : other = ref
  · subst same
    rw [if_pos rfl, List.getLast?_concat, notifies.records_self]
  · rw [if_neg (Ne.symm same), List.append_nil, notifies.records_of_ne same]
    exact tasks.current other (notifies.lt_of_ne below same)

/-- An unfinished task with the identifier of the record is the record. -/
theorem eq_of_taskId (notifies : Notifies s t ref record) (below : other < t.created)
    (unfinished : t.finished other = false) (named : (t.records other).taskId = record.taskId) :
    other = ref := by
  by_contra ne
  rw [notifies.finished_of_ne ne] at unfinished
  rw [notifies.records_of_ne ne] at named
  exact ne (notifies.unique other (notifies.lt_of_ne below ne) unfinished named)

theorem only (notifies : Notifies s t ref record) (tasks : TaskInv s) {first second : Ref}
    (below : first < t.created) (below' : second < t.created) (unfinished : t.finished first = false)
    (unfinished' : t.finished second = false)
    (named : (t.records first).taskId = (t.records second).taskId) : first = second := by
  by_cases same : first = ref
  · rw [same, notifies.records_self] at named
    exact same.trans (notifies.eq_of_taskId below' unfinished' named.symm).symm
  · by_cases same' : second = ref
    · rw [same', notifies.records_self] at named
      exact absurd (notifies.eq_of_taskId below unfinished named) same
    · rw [notifies.finished_of_ne same] at unfinished
      rw [notifies.finished_of_ne same'] at unfinished'
      rw [notifies.records_of_ne same, notifies.records_of_ne same'] at named
      exact tasks.unique first (notifies.lt_of_ne below same) second
        (notifies.lt_of_ne below' same') unfinished unfinished' named

theorem closed_of_finished (notifies : Notifies s t ref record) (tasks : TaskInv s)
    (below : other < t.created) (isOver : t.finished other = true) :
    (t.records other).taskId ∈ t.events.closed := by
  rw [notifies.closed]
  by_cases same : other = ref
  · subst same
    rw [finished, notifies.records_self] at isOver
    exact .inl ⟨isOver, by rw [notifies.records_self]⟩
  · rw [notifies.finished_of_ne same] at isOver
    rw [notifies.records_of_ne same]
    exact .inr (tasks.closed other (notifies.lt_of_ne below same) isOver)

/-- Where the registry does not change, it had the record already. -/
theorem registered_of_old (notifies : Notifies s t ref record) (tasks : TaskInv s)
    (before : ref < s.created) :
    (s.registry s.serviceRegistry).get record.taskId = some ref := by
  rcases notifies.kind with ⟨fresh, _⟩ | ⟨_, _, live, named⟩
  · exact absurd fresh (Nat.ne_of_lt before)
  · exact named ▸ tasks.registered ref before live

theorem registered (notifies : Notifies s t ref record) (tasks : TaskInv s)
    (below : other < t.created) (unfinished : t.finished other = false) :
    (t.registry t.serviceRegistry).get (t.records other).taskId = some other := by
  by_cases same : other = ref
  · subst same
    rw [notifies.records_self]
    rcases notifies.registry with put | ⟨kept, before⟩
    · rw [put]
      exact TaskRegistry.get_put_self unfinished
    · rw [kept]
      exact notifies.registered_of_old tasks before
  · have before := notifies.lt_of_ne below same
    have live := (notifies.finished_of_ne same).symm.trans unfinished
    have there := tasks.registered other before live
    rw [notifies.records_of_ne same]
    rcases notifies.registry with put | ⟨kept, _⟩
    · rw [put]
      exact TaskRegistry.get_put_of_ne
        (fun named => same (notifies.unique other before live named)) there unfinished
    · rw [kept]
      exact there

theorem stored (notifies : Notifies s t ref record) (tasks : TaskInv s) {taskId : String}
    (found : (t.registry t.serviceRegistry).get taskId = some other) :
    t.latest t.created taskId = some other := by
  by_cases same : taskId = record.taskId
  · rw [same, notifies.latest_self tasks]
    rcases notifies.registry with put | ⟨kept, before⟩
    · rw [put] at found
      have entry := TaskRegistry.get_of_get_put found
      rw [if_pos same] at entry
      rw [entry]
    · rw [kept, same] at found
      exact (notifies.registered_of_old tasks before).symm.trans found
  · rw [notifies.latest_of_ne same]
    rcases notifies.registry with put | ⟨kept, _⟩
    · rw [put] at found
      have entry := TaskRegistry.get_of_get_put found
      rw [if_neg same] at entry
      exact tasks.stored _ _ entry
    · rw [kept] at found
      exact tasks.stored _ _ found

theorem taskInv (notifies : Notifies s t ref record) (tasks : TaskInv s) : TaskInv t where
  current := fun _ below => notifies.current tasks below
  unique := fun _ below _ below' => notifies.only tasks below below'
  closed := fun _ below isOver => notifies.closed_of_finished tasks below isOver
  valid := notifies.valid tasks.valid
  registered := fun _ below unfinished => notifies.registered tasks below unfinished
  stored := fun _ _ found => notifies.stored tasks found

end Task

end Notifies

/-! ### The steps that do -/

section Publish

variable {s t u : GatewayService} {ref : Ref} {record : TaskRecord}

/-- Every subscriber is sent a frame, once. -/
theorem getElem?_sendEach_subscribed (hub : HubInv s) (taskId : String) (frame : Frame)
    (clients : List Client) (index : Nat) :
    (sendEach clients (s.events.subscribed taskId) frame)[index]? =
      (clients[index]?).map
        (·.send (if index ∈ s.events.subscribed taskId then [frame] else [])) := by
  rw [getElem?_sendEach]
  split
  · rename_i member
    rw [List.count_eq_one_of_mem (hub.nodup taskId) member]
    rfl
  · rename_i absent
    rw [List.count_eq_zero.mpr absent]
    rfl

/-- The hub once the record is published, and its task closed if it is finished. -/
def announced (s : GatewayService) (record : TaskRecord) : TaskEventHub :=
  if record.status.finished then (s.events.publish record.taskId record).close record.taskId
  else s.events.publish record.taskId record

theorem subscribed_announced (taskId : String) :
    (s.announced record).subscribed taskId =
      if record.status.finished = true ∧ taskId = record.taskId then []
      else s.events.subscribed taskId := by
  unfold announced
  split
  · rename_i isOver
    rw [TaskEventHub.subscribed_close]
    simp [isOver]
    rfl
  · rename_i still
    simp [still]
    rfl

theorem closed_announced (taskId : String) :
    taskId ∈ (s.announced record).closed ↔
      record.status.finished = true ∧ taskId = record.taskId ∨ taskId ∈ s.events.closed := by
  unfold announced
  split
  · rename_i isOver
    simp [isOver, TaskEventHub.close]
    rfl
  · rename_i still
    simp [still]
    rfl

theorem clients_announced (hub : HubInv s) (index : Nat) :
    (s.announced record).clients[index]? =
      (s.events.clients[index]?).map (·.send (s.sent record index)) := by
  have published : (s.events.publish record.taskId record).clients[index]? =
      (s.events.clients[index]?).map
        (·.send (if index ∈ s.events.subscribed record.taskId then [some record] else [])) :=
    getElem?_sendEach_subscribed hub record.taskId (some record) s.events.clients index
  unfold announced sent
  cases isOver : record.status.finished with
  | false =>
      rw [if_neg (by simp), published]
      simp
  | true =>
      have closing := getElem?_sendEach_subscribed hub record.taskId none
        (s.events.publish record.taskId record).clients index
      rw [published, Option.map_map] at closing
      refine closing.trans (congrArg (Option.map · _) (funext fun client => ?_))
      change (client.send _).send _ = _
      by_cases member : index ∈ s.events.subscribed record.taskId
      · simp [member, Client.send]
      · simp [member, Client.send]

theorem registry_publish {index : Nat} (valid : s.serviceRegistry < u.registries.length) :
    (u.publish index ref).registry s.serviceRegistry =
      if index = s.serviceRegistry then
        (u.registry s.serviceRegistry).put u.finished (u.records ref).taskId ref
      else u.registry s.serviceRegistry := by
  unfold registry publish
  dsimp only
  rw [List.getElem?_modify, List.getElem?_eq_getElem valid]
  split <;> rfl

/-- A step that changes a record and publishes it, and closes its events if it is finished. -/
theorem notifies_of_publish (hub : HubInv s) (tasks : TaskInv s) (index : Nat)
    (kind : ref = s.created ∧ t.created = s.created + 1 ∧ index = s.serviceRegistry ∨
      ref < s.created ∧ t.created = s.created ∧ s.finished ref = false ∧
        record.taskId = (s.records ref).taskId)
    (unique : ∀ other < s.created, s.finished other = false →
      (s.records other).taskId = record.taskId → other = ref)
    (changed : u = { s with
      records := Function.update s.records ref record
      created := u.created
      queue := u.queue
      workers := u.workers
      executions := u.executions })
    (records : t.records = u.records)
    (published : t.published = (u.publish index ref).published)
    (registries : t.registries = (u.publish index ref).registries)
    (service : t.serviceRegistry = s.serviceRegistry)
    (events : t.events =
      if record.status.finished then (u.publish index ref).events.close record.taskId
      else (u.publish index ref).events) : Notifies s t ref record := by
  have current : u.records ref = record := by
    rw [changed]
    exact Function.update_self ref record s.records
  have same_events : (u.publish index ref).events = s.events.publish record.taskId record := by
    rw [← current, changed]
    rfl
  have same_registries : u.registries = s.registries := by rw [changed]
  have same_finished : t.finished = u.finished := by
    funext other
    rw [finished, finished, records]
  rw [same_events] at events
  have announces : t.events = s.announced record := events
  refine ⟨?_, unique, ?_, ?_, ?_, ?_, ?_, ?_, ?_⟩
  · rcases kind with ⟨fresh, grown, _⟩ | live
    · exact .inl ⟨fresh, grown⟩
    · exact .inr live
  · rw [records, changed]
  · rw [published]
    change u.published ++ [(ref, u.records ref)] = _
    rw [current, changed]
  · exact announces ▸ subscribed_announced
  · exact announces ▸ clients_announced hub
  · exact announces ▸ closed_announced
  · have same_registry : t.registry t.serviceRegistry =
        (u.publish index ref).registry s.serviceRegistry := by
      unfold registry
      rw [registries, service]
    have before : u.registry s.serviceRegistry = s.registry s.serviceRegistry := by
      unfold registry
      rw [same_registries]
    rw [same_registry, registry_publish (same_registries ▸ tasks.valid), current, same_finished,
      before]
    rcases kind with ⟨_, _, same⟩ | ⟨below, _⟩
    · exact .inl (if_pos same)
    · split
      · exact .inl rfl
      · exact .inr ⟨rfl, below⟩
  · intro valid
    rw [service, registries]
    change s.serviceRegistry < (u.registries.modify index _).length
    rw [List.length_modify, same_registries]
    exact valid

theorem notifies_submit (hub : HubInv s) (tasks : TaskInv s) (submission : Submission)
    (free : ∀ ref < s.created, (s.records ref).taskId = submission.record.taskId →
      s.finished ref = true) :
    Notifies s (s.submit submission) s.created submission.record := by
  have created : (s.submit submission).created = s.created + 1 := by
    unfold submit enqueue
    split <;> rfl
  refine notifies_of_publish (u := s.enter submission.record) hub tasks s.serviceRegistry
    (.inl ⟨rfl, created, rfl⟩) ?_ rfl ?_ ?_ ?_ ?_ ?_
  · intro other below unfinished named
    rw [free other below named] at unfinished
    cases unfinished
  all_goals
    unfold submit enqueue
    split <;> rfl

/-- An unfinished task is the only one with its identifier. -/
theorem TaskInv.only (tasks : TaskInv s) (below : ref < s.created)
    (unfinished : s.finished ref = false) (named : record.taskId = (s.records ref).taskId)
    (other : Ref) (other_below : other < s.created) (other_unfinished : s.finished other = false)
    (same : (s.records other).taskId = record.taskId) : other = ref :=
  tasks.unique other other_below ref below other_unfinished unfinished (same.trans named)

theorem finished_eq_false {status : TaskStatus} (same : (s.records ref).status = status)
    (unfinished : status.finished = false) : s.finished ref = false := by
  rw [finished, same, unfinished]

theorem notifies_taken (accounted : Accounted 0 s) (hub : HubInv s) (tasks : TaskInv s)
    {worker : Nat} {rest : List Ref} {now : Rat} (first : s.queue = ref :: rest) :
    Notifies s (s.taken worker ref rest now) ref
      (start (s.workerPrefix ++ "-" ++ toString worker) now (s.records ref)) := by
  have member : ref ∈ s.queue := first ▸ List.mem_cons_self
  have below := (accounted.lt_of_not_absent (not_absent_of_mem_queue member)).2
  obtain ⟨_, status, _⟩ := (accounted.standing ref (Nat.zero_le _) below).of_mem_queue member
  have unfinished := finished_eq_false status rfl
  exact notifies_of_publish
    (u := (({ s with queue := rest } : GatewayService).setWorker worker (.busy ref)).change ref
      (start (s.workerPrefix ++ "-" ++ toString worker) now))
    hub tasks s.poolRegistry (.inr ⟨below, rfl, unfinished, rfl⟩)
    (tasks.only below unfinished rfl) rfl rfl rfl rfl rfl rfl

theorem notifies_concluded (accounted : Accounted 0 s) (hub : HubInv s) (tasks : TaskInv s)
    {worker : Nat} {execution : Execution} {outcome : TaskOutcome} {now : Rat}
    (busy : s.workers[worker]? = some (.busy ref)) :
    Notifies s (s.concluded worker ref execution outcome now) ref
      (conclude outcome now (s.records ref)) := by
  have below := (accounted.lt_of_not_absent (not_absent_of_busy busy)).2
  obtain ⟨_, status, _⟩ := (accounted.standing ref (Nat.zero_le _) below).of_busy busy
  have unfinished := finished_eq_false status rfl
  have isOver : (conclude outcome now (s.records ref)).status.finished = true := by
    unfold conclude
    dsimp only
    split <;> rfl
  have current : ((s.concluded worker ref execution outcome now).records ref) =
      conclude outcome now (s.records ref) := Function.update_self ref _ s.records
  refine notifies_of_publish
    (u := (s.logged ref execution).change ref (conclude outcome now))
    hub tasks s.poolRegistry (.inr ⟨below, rfl, unfinished, rfl⟩)
    (tasks.only below unfinished rfl) rfl rfl rfl rfl rfl ?_
  rw [if_pos isOver, ← current]
  rfl

end Publish

end YouMi.Gateway.GatewayService
