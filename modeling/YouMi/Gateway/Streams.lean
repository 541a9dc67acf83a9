import YouMi.Gateway.Publishing

/-!
# What the clients of a task are sent

A client whose stream begins while its task is unfinished is subscribed, and is sent
each later snapshot of the task and then the end of the stream; one that comes later is
sent the last snapshot.  The hub forgets no task that is closed, so a task that is
submitted again under the same identifier has no streams.
-/

namespace YouMi.Gateway.GatewayService

open YouMi.Library

/-! ## Steps of clients -/

structure StreamInv (s : GatewayService) : Prop where
  accounted : Accounted 0 s
  tasks : TaskInv s
  hub : HubInv s

section Clients

variable {s t : GatewayService}

/-- What is said of tasks does not change with the clients. -/
theorem TaskInv.of_eq (tasks : TaskInv s) (records : t.records = s.records)
    (created : t.created = s.created) (published : t.published = s.published)
    (registries : t.registries = s.registries) (service : t.serviceRegistry = s.serviceRegistry)
    (closed : t.events.closed = s.events.closed) : TaskInv t := by
  have finished_eq : t.finished = s.finished := by
    funext ref
    rw [finished, finished, records]
  have snapshots_eq : ∀ ref, t.snapshots ref 0 = s.snapshots ref 0 := by
    intro ref
    rw [snapshots, snapshots, published]
  have registry_eq : t.registry t.serviceRegistry = s.registry s.serviceRegistry := by
    rw [registry, registry, registries, service]
  have latest_eq : ∀ taskId, t.latest s.created taskId = s.latest s.created taskId := by
    intro taskId
    exact latest_congr fun ref _ => by rw [records]
  refine ⟨?_, ?_, ?_, ?_, ?_, ?_⟩
  · rw [created, records]
    intro ref below
    rw [snapshots_eq]
    exact tasks.current ref below
  · rw [created, finished_eq, records]
    exact tasks.unique
  · rw [created, finished_eq, records, closed]
    exact tasks.closed
  · rw [service, registries]
    exact tasks.valid
  · rw [created, finished_eq, records, registry_eq]
    exact tasks.registered
  · rw [created, registry_eq]
    intro taskId ref found
    rw [latest_eq]
    exact tasks.stored taskId ref found

theorem ClientInv.of_eq {index : Nat} {client : Client} (inv : ClientInv s index client)
    (records : t.records = s.records) (created : t.created = s.created)
    (published : t.published = s.published)
    (subscribed : index ∈ t.events.subscribed client.taskId ↔
      index ∈ s.events.subscribed client.taskId) : ClientInv t index client := by
  have finished_eq : ∀ ref, t.finished ref = s.finished ref := by
    intro ref
    rw [finished, finished, records]
  refine ⟨?_, ?_, inv.requested, fun opened ref found => ?_⟩
  · rw [created]
    exact inv.tasks
  · rw [published]
    exact inv.published
  · have same : t.latest client.tasksBefore client.taskId =
        s.latest client.tasksBefore client.taskId := latest_congr fun other _ => by rw [records]
    rw [same] at found
    obtain ⟨before, after⟩ := inv.streaming opened ref found
    refine ⟨?_, ?_⟩
    · rw [subscribed, finished_eq, FinishedBefore, snapshots, published]
      exact before
    · rw [subscribed, finished_eq, FinishedBefore, published, records]
      exact after

/-- A step that publishes nothing. -/
theorem StreamInv.of_quiet (inv : StreamInv s) (accounted : Accounted 0 t)
    (records : t.records = s.records) (created : t.created = s.created)
    (published : t.published = s.published) (registries : t.registries = s.registries)
    (service : t.serviceRegistry = s.serviceRegistry) (events : t.events = s.events) :
    StreamInv t where
  accounted := accounted
  tasks := inv.tasks.of_eq records created published registries service (events ▸ rfl)
  hub := by
    refine ⟨events ▸ inv.hub.subscribed, events ▸ inv.hub.nodup, ?_⟩
    intro index client there
    rw [events] at there
    exact (inv.hub.clients index client there).of_eq records created published (by rw [events])

/-- A step that concerns one client only. -/
theorem HubInv.of_client (inv : HubInv s) {hub : TaskEventHub} {index : Nat} {client : Client}
    (there : hub.clients[index]? = some client)
    (clientInv : ClientInv { s with events := hub } index client)
    (own : ∀ taskId, index ∈ hub.subscribed taskId → client.stage = .open ∧ client.taskId = taskId)
    (nodup : ∀ taskId, (hub.subscribed taskId).Nodup)
    (others : ∀ other, other ≠ index → hub.clients[other]? = s.events.clients[other]? ∧
      ∀ taskId, other ∈ hub.subscribed taskId ↔ other ∈ s.events.subscribed taskId) :
    HubInv { s with events := hub } where
  subscribed := by
    intro taskId other member
    by_cases same : other = index
    · subst same
      obtain ⟨opened, named⟩ := own taskId member
      exact ⟨client, there, opened, named⟩
    · obtain ⟨unchanged, subscribers⟩ := others other same
      obtain ⟨found, is_there, opened, named⟩ :=
        inv.subscribed taskId other ((subscribers taskId).mp member)
      exact ⟨found, unchanged.trans is_there, opened, named⟩
  nodup := nodup
  clients := by
    intro other found is_there
    by_cases same : other = index
    · subst same
      cases there.symm.trans is_there
      exact clientInv
    · obtain ⟨unchanged, subscribers⟩ := others other same
      exact (inv.clients other found (unchanged.symm.trans is_there)).of_eq rfl rfl rfl
        (subscribers found.taskId)

/-- The snapshots of a task that is unfinished are not terminal. -/
theorem not_finishedBefore (accounted : Accounted 0 s) {ref : Ref} (below : ref < s.created)
    (unfinished : s.finished ref = false) (since : Nat) : ¬FinishedBefore s ref since := by
  rintro ⟨entry, member, own, isOver⟩
  have standing := accounted.standing ref (Nat.zero_le _) below
  have published : entry.2.status ∈ s.history ref := by
    exact List.mem_map.mpr ⟨entry,
      List.mem_filter.mpr ⟨List.mem_of_mem_take member, decide_eq_true own⟩, rfl⟩
  rw [Course.unfinished standing unfinished _ published] at isOver
  cases isOver

/-- The terminal snapshot of a task that is finished has been published. -/
theorem finishedBefore_now (tasks : TaskInv s) {ref : Ref} (below : ref < s.created)
    (isOver : s.finished ref = true) : FinishedBefore s ref s.published.length := by
  have last := List.mem_of_getLast? (tasks.current ref below)
  obtain ⟨entry, member, same⟩ := List.mem_map.mp last
  obtain ⟨published, own⟩ := List.mem_filter.mp member
  refine ⟨entry, ?_, of_decide_eq_true own, ?_⟩
  · rw [List.take_length]
    exact List.mem_of_mem_drop published
  · rw [same]
    exact isOver

section One

variable {index : Nat} {client : Client}

theorem getElem?_setClient (there : s.events.clients[index]? = some client) (changed : Client)
    (other : Nat) :
    (s.setClient index changed).clients[other]? =
      if other = index then some changed else s.events.clients[other]? := by
  unfold setClient
  dsimp only
  rw [List.getElem?_set]
  obtain ⟨inside, _⟩ := List.getElem?_eq_some_iff.mp there
  by_cases same : other = index
  · simp [same, inside]
  · simp [same, Ne.symm same]

theorem latest_events (hub : TaskEventHub) (count : Nat) (taskId : String) :
    ({ s with events := hub } : GatewayService).latest count taskId = s.latest count taskId :=
  latest_congr fun _ _ => rfl

/-- A client that has asked for a stream is sent nothing yet. -/
theorem hubInv_request (inv : HubInv s) (taskId : String) :
    HubInv { s with events :=
      { s.events with clients := s.events.clients ++ [{ taskId }] } } := by
  refine ⟨fun other index member => ?_, inv.nodup, fun index client there => ?_⟩
  · obtain ⟨client, there, rest⟩ := inv.subscribed other index member
    refine ⟨client, ?_, rest⟩
    exact (List.getElem?_append_left (List.getElem?_eq_some_iff.mp there).1).trans there
  · rcases Nat.lt_or_ge index s.events.clients.length with inside | outside
    · have old := (List.getElem?_append_left inside).symm.trans there
      exact (inv.clients index client old).of_eq rfl rfl rfl Iff.rfl
    · have new := (List.getElem?_append_right outside).symm.trans there
      obtain ⟨_, same⟩ := List.getElem?_eq_some_iff.mp new
      rw [List.getElem_singleton] at same
      subst same
      exact ⟨Nat.zero_le _, Nat.zero_le _, fun _ => rfl, nofun⟩

/-- The stream of a finished task: it begins with the last snapshot, and ends. -/
theorem clientInv_replay (inv : StreamInv s) (there : s.events.clients[index]? = some client)
    (requested : client.stage = .requested) {ref : Ref} {hub : TaskEventHub}
    (last : s.latest s.created client.taskId = some ref) (isOver : s.finished ref = true)
    (away : index ∉ hub.subscribed client.taskId) :
    ClientInv { s with events := hub } index
      ((s.begun client).send [some (s.records ref), none]) := by
  have below := (latest_spec last).1
  have before := finishedBefore_now inv.tasks below isOver
  have empty := (inv.hub.clients index client there).requested requested
  refine ⟨Nat.le_refl _, Nat.le_refl _, nofun, fun _ task found => ?_⟩
  rw [latest_events] at found
  cases last.symm.trans found
  refine ⟨fun still => absurd before still, fun _ => ⟨isOver, ?_, away⟩⟩
  rw [Client.frames_send]
  change client.frames ++ _ = _
  rw [empty]
  rfl

/-- The stream of an unfinished task, or of none: what is published from now on. -/
theorem clientInv_subscribed (inv : StreamInv s) (there : s.events.clients[index]? = some client)
    (requested : client.stage = .requested) {hub : TaskEventHub}
    (unfinished : ∀ ref, s.latest s.created client.taskId = some ref → s.finished ref = false)
    (subscribed : index ∈ hub.subscribed client.taskId) :
    ClientInv { s with events := hub } index (s.begun client) := by
  have empty := (inv.hub.clients index client there).requested requested
  refine ⟨Nat.le_refl _, Nat.le_refl _, nofun, fun _ ref found => ?_⟩
  rw [latest_events] at found
  have still : s.finished ref = false := unfinished ref found
  have below : ref < s.created := (latest_spec found).1
  refine ⟨fun _ => ⟨?_, ?_⟩, fun isOver => ?_⟩
  · change client.frames = (s.snapshots ref s.published.length).map some ++
      if s.finished ref = true then [none] else []
    rw [empty, if_neg (Bool.eq_false_iff.mp still)]
    unfold snapshots
    rw [List.drop_length]
    rfl
  · exact iff_of_true subscribed still
  · exact absurd isOver (not_finishedBefore inv.accounted below still _)

theorem not_subscribed_of_requested (inv : HubInv s)
    (there : s.events.clients[index]? = some client) (requested : client.stage = .requested)
    (taskId : String) : index ∉ s.events.subscribed taskId := by
  intro member
  obtain ⟨found, is_there, opened, _⟩ := inv.subscribed taskId index member
  rw [there] at is_there
  cases is_there
  rw [requested] at opened
  cases opened

theorem hubInv_replay (inv : StreamInv s) (there : s.events.clients[index]? = some client)
    (requested : client.stage = .requested) {ref : Ref}
    (last : s.latest s.created client.taskId = some ref) (isOver : s.finished ref = true) :
    HubInv { s with
      events := s.setClient index ((s.begun client).send [some (s.records ref), none]) } := by
  have away := not_subscribed_of_requested inv.hub there requested
  refine inv.hub.of_client ((getElem?_setClient there _ index).trans (if_pos rfl))
    (clientInv_replay inv there requested last isOver (away client.taskId))
    (fun taskId member => absurd member (away taskId)) inv.hub.nodup fun other ne => ?_
  exact ⟨(getElem?_setClient there _ other).trans (if_neg ne), fun _ => Iff.rfl⟩

theorem hubInv_subscribe (inv : StreamInv s) (there : s.events.clients[index]? = some client)
    (requested : client.stage = .requested) (opened : client.taskId ∉ s.events.closed)
    (unfinished : ∀ ref, s.latest s.created client.taskId = some ref → s.finished ref = false) :
    HubInv { s with
      events := (s.setClient index (s.begun client)).subscribe client.taskId index } := by
  have away := not_subscribed_of_requested inv.hub there requested
  have subscribers : ∀ taskId, ((s.setClient index (s.begun client)).subscribe client.taskId
      index).subscribed taskId =
        if taskId = client.taskId then s.events.subscribed client.taskId ++ [index]
        else s.events.subscribed taskId := fun taskId => TaskEventHub.subscribed_subscribe opened
  have clients : ∀ other, ((s.setClient index (s.begun client)).subscribe client.taskId
      index).clients[other]? =
        if other = index then some (s.begun client) else s.events.clients[other]? := by
    intro other
    have subscribed : ((s.setClient index (s.begun client)).subscribe client.taskId
        index).clients = (s.setClient index (s.begun client)).clients := by
      unfold TaskEventHub.subscribe
      split
      · rename_i closed
        exact absurd closed opened
      · rfl
    rw [subscribed]
    exact getElem?_setClient there _ other
  refine inv.hub.of_client ((clients index).trans (if_pos rfl))
    (clientInv_subscribed inv there requested unfinished ?_) ?_ ?_ fun other ne => ?_
  · rw [subscribers, if_pos rfl]
    exact List.mem_append_right _ List.mem_cons_self
  · intro taskId member
    rw [subscribers] at member
    split at member
    · rename_i same
      exact ⟨rfl, same.symm⟩
    · exact absurd member (away taskId)
  · intro taskId
    rw [subscribers]
    split
    · refine List.nodup_append.mpr ⟨inv.hub.nodup _, List.nodup_singleton index, ?_⟩
      intro first member second last same
      rw [List.mem_singleton.mp last] at same
      exact away _ (same ▸ member)
    · exact inv.hub.nodup taskId
  · refine ⟨(clients other).trans (if_neg ne), fun taskId => ?_⟩
    rw [subscribers]
    split
    · rename_i same
      simp [same, ne]
    · exact Iff.rfl

theorem hubInv_openStream (inv : StreamInv s)
    (serves : s.ServesStreams (.client (.openStream index))) : HubInv (s.openStream index) := by
  unfold openStream
  split
  · rename_i client there
    split
    · rename_i requested
      dsimp only
      -- A task that is known under the identifier is the latest.
      have known : ∀ record, s.get client.taskId = some record → ∃ ref,
          s.latest s.created client.taskId = some ref ∧ record = s.records ref := by
        intro record found
        obtain ⟨ref, entry, same⟩ := Option.map_eq_some_iff.mp found
        exact ⟨ref, inv.tasks.stored _ _ entry, same.symm⟩
      have opened_of : (∀ record, s.get client.taskId = some record →
          record.status.finished = false) → client.taskId ∉ s.events.closed := by
        intro unfinished closed
        obtain ⟨record, found, isOver⟩ := serves client there closed
        rw [unfinished record found] at isOver
        cases isOver
      split
      · rename_i record found
        obtain ⟨ref, last, rfl⟩ := known record found
        split
        · rename_i isOver
          exact hubInv_replay inv there requested last isOver
        · rename_i still
          refine hubInv_subscribe inv there requested ?_ fun other found => ?_
          · refine opened_of fun record' found' => ?_
            rw [found] at found'
            cases found'
            exact Bool.eq_false_iff.mpr still
          · rw [last] at found
            cases found
            exact Bool.eq_false_iff.mpr still
      · rename_i missing
        have opened := opened_of fun record found => nomatch missing.symm.trans found
        refine hubInv_subscribe inv there requested opened fun ref last => ?_
        obtain ⟨below, named⟩ := latest_spec last
        by_contra isOver
        have closed := inv.tasks.closed ref below ((Bool.not_eq_false _).mp isOver)
        exact opened (named ▸ closed)
    · exact inv.hub
  · exact inv.hub

theorem own_of_subscribed (inv : HubInv s) (there : s.events.clients[index]? = some client)
    (taskId : String) (member : index ∈ s.events.subscribed taskId) :
    client.stage = .open ∧ client.taskId = taskId := by
  obtain ⟨found, is_there, opened, named⟩ := inv.subscribed taskId index member
  rw [there] at is_there
  cases is_there
  exact ⟨opened, named⟩

/-- A client that has taken a frame is where it was, and at the end of the stream it was not
subscribed any more. -/
theorem clientInv_received (inv : HubInv s) (there : s.events.clients[index]? = some client)
    {frame : Frame} {rest : List Frame} (pending : client.pending = frame :: rest)
    {hub : TaskEventHub}
    (subscribed : index ∈ hub.subscribed client.taskId → index ∈ s.events.subscribed client.taskId)
    (still : frame ≠ none → index ∈ s.events.subscribed client.taskId →
      index ∈ hub.subscribed client.taskId) :
    ClientInv { s with events := hub } index
      { client with pending := rest, received := client.received ++ [frame] } := by
  have clientInv := inv.clients index client there
  have same : ({ client with pending := rest, received := client.received ++ [frame] } :
      Client).frames = client.frames := by
    unfold Client.frames
    rw [pending, List.append_assoc]
    rfl
  refine ⟨clientInv.tasks, clientInv.published, fun requested => same.trans
    (clientInv.requested requested), fun opened ref found => ?_⟩
  rw [latest_events] at found
  obtain ⟨before, after⟩ := clientInv.streaming opened ref found
  refine ⟨fun unfinished => ?_, fun isOver => ?_⟩
  · obtain ⟨frames, awaits⟩ := before unfinished
    refine ⟨same.trans frames, fun member => awaits.mp (subscribed member), fun waits => ?_⟩
    refine still ?_ (awaits.mpr waits)
    rintro rfl
    -- An unfinished task has sent no end.
    have ended : none ∈ client.frames := by
      unfold Client.frames
      rw [pending]
      exact List.mem_append_right _ List.mem_cons_self
    rw [frames, show s.finished ref = false from waits] at ended
    simp at ended
  · obtain ⟨ended, frames, away⟩ := after isOver
    exact ⟨ended, same.trans frames, fun member => away (subscribed member)⟩

theorem hubInv_receive (inv : HubInv s) : HubInv (s.receive index) := by
  unfold receive
  split
  · rename_i client there
    split
    · rename_i frame rest opened pending
      dsimp only
      have changed := getElem?_setClient there
        { client with pending := rest, received := client.received ++ [frame] }
      have own := own_of_subscribed inv there
      split
      · refine inv.of_client ((changed index).trans (if_pos rfl))
          (clientInv_received inv there pending id fun _ => id) own inv.nodup fun other ne => ?_
        exact ⟨(changed other).trans (if_neg ne), fun _ => Iff.rfl⟩
      · rename_i last
        refine inv.of_client ((changed index).trans (if_pos rfl))
          (clientInv_received inv there pending TaskEventHub.mem_subscribed_of_remove
            fun nonempty => absurd ?_ nonempty)
          (fun taskId member => own taskId (TaskEventHub.mem_subscribed_of_remove member))
          (TaskEventHub.nodup_subscribed_remove inv.nodup) fun other ne => ?_
        · exact Option.not_isSome_iff_eq_none.mp last
        · exact ⟨(changed other).trans (if_neg ne),
            fun taskId => TaskEventHub.mem_subscribed_remove_of_ne ne⟩
    · exact inv
  · exact inv

/-- A client takes what is first in its queue. -/
theorem getElem?_receive (there : s.events.clients[index]? = some client)
    (opened : client.stage = .open) {frame : Frame} {rest : List Frame}
    (pending : client.pending = frame :: rest) :
    (s.receive index).events.clients[index]? =
      some { client with pending := rest, received := client.received ++ [frame] } := by
  obtain ⟨taskId, stage, queue, received, tasks, published⟩ := client
  cases opened
  cases pending
  have changed := fun client : Client =>
    (getElem?_setClient there client index).trans (if_pos rfl)
  unfold receive
  rw [there]
  dsimp only
  split
  · exact changed _
  · exact changed _

/-- A client that goes on receives all it has been sent. -/
theorem receives_all (there : s.events.clients[index]? = some client)
    (opened : client.stage = .open) :
    (run step s (List.replicate client.pending.length (.client (.receive index)))).events.clients[
      index]? = some { client with pending := [], received := client.frames } := by
  obtain ⟨taskId, stage, pending, received, tasks, published⟩ := client
  induction pending generalizing s received with
  | nil => simpa [Client.frames] using there
  | cons frame rest ih =>
      have next := ih (received ++ [frame]) (getElem?_receive there opened rfl) opened
      rw [List.length_cons, List.replicate_succ, run_cons]
      refine Eq.trans next ?_
      simp [Client.frames]

theorem hubInv_disconnect (inv : HubInv s) : HubInv (s.disconnect index) := by
  unfold disconnect
  split
  · rename_i client there
    have changed := getElem?_setClient there { client with stage := .gone }
    have clientInv := inv.clients index client there
    have away : ∀ taskId, index ∉ ((s.setClient index { client with stage := .gone }).remove
        client.taskId index).subscribed taskId := by
      intro taskId member
      have named := (own_of_subscribed inv there taskId
        (TaskEventHub.mem_subscribed_of_remove member)).2
      rw [TaskEventHub.subscribed_remove, if_pos named.symm] at member
      exact (List.Nodup.mem_erase_iff (inv.nodup client.taskId)).mp member |>.1 rfl
    refine inv.of_client ((changed index).trans (if_pos rfl))
      ⟨clientInv.tasks, clientInv.published, nofun, nofun⟩
      (fun taskId member => absurd member (away taskId))
      (TaskEventHub.nodup_subscribed_remove inv.nodup) fun other ne => ?_
    exact ⟨(changed other).trans (if_neg ne),
      fun taskId => TaskEventHub.mem_subscribed_remove_of_ne ne⟩
  · exact inv

end One

end Clients

/-! ## Runs -/

section Run

variable {s t : GatewayService}

theorem StreamInv.of_notifies (inv : StreamInv s) (accounted : Accounted 0 t) {ref : Ref}
    {record : TaskRecord} (notifies : Notifies s t ref record) : StreamInv t :=
  ⟨accounted, notifies.taskInv inv.tasks, notifies.hubInv inv.hub⟩

theorem StreamInv.of_hub (inv : StreamInv s) {hub : TaskEventHub}
    (hubInv : HubInv { s with events := hub }) (closed : hub.closed = s.events.closed) :
    StreamInv { s with events := hub } :=
  ⟨inv.accounted.of_events hub, inv.tasks.of_eq rfl rfl rfl rfl rfl closed, hubInv⟩

theorem closed_clientStep (s : GatewayService) (action : ClientAction) :
    (s.clientStep action).events.closed = s.events.closed := by
  have subscribe : ∀ (hub : TaskEventHub) taskId index,
      (hub.subscribe taskId index).closed = hub.closed := by
    intro hub taskId index
    unfold TaskEventHub.subscribe
    split <;> rfl
  cases action with
  | request tenant taskId =>
      change (s.request tenant taskId).events.closed = _
      unfold request
      split
      · rfl
      · split <;> rfl
  | openStream index =>
      change (s.openStream index).events.closed = _
      unfold openStream
      split
      · split
        · dsimp only
          split
          · split
            · rfl
            · exact subscribe _ _ _
          · exact subscribe _ _ _
        · rfl
      · rfl
  | receive index =>
      change (s.receive index).events.closed = _
      unfold receive
      split
      · split
        · dsimp only
          split <;> rfl
        · rfl
      · rfl
  | disconnect index =>
      change (s.disconnect index).events.closed = _
      unfold disconnect
      split <;> rfl

theorem hubInv_clientStep (inv : StreamInv s) (action : ClientAction)
    (serves : s.ServesStreams (.client action)) : HubInv (s.clientStep action) := by
  cases action with
  | request tenant taskId =>
      change HubInv (s.request tenant taskId)
      unfold request
      split
      · exact inv.hub
      · split
        · exact hubInv_request inv.hub taskId
        · exact inv.hub
  | openStream index => exact hubInv_openStream inv serves
  | receive index => exact hubInv_receive inv.hub
  | disconnect index => exact hubInv_disconnect inv.hub

theorem StreamInv.step (inv : StreamInv s) (action : Action) (serves : s.ServesStreams action) :
    StreamInv (s.step action) := by
  have accounted := inv.accounted.step action
  cases action with
  | submit submission =>
      exact inv.of_notifies accounted (notifies_submit inv.hub inv.tasks submission serves)
  | resume ref =>
      change Accounted 0 (s.resume ref) at accounted
      change StreamInv (s.resume ref)
      rcases s.resume_cases ref with same | ⟨_, same⟩
      · rwa [same]
      · rw [same] at accounted ⊢
        exact inv.of_quiet accounted rfl rfl rfl rfl rfl rfl
  | take worker now =>
      change Accounted 0 (s.take worker now) at accounted
      change StreamInv (s.take worker now)
      rcases s.take_cases worker now with same | ⟨ref, rest, _, first, same⟩
      · rwa [same]
      · rw [same] at accounted ⊢
        exact inv.of_notifies accounted (notifies_taken inv.accounted inv.hub inv.tasks first)
  | finish worker execution now =>
      change Accounted 0 (s.finish worker execution now) at accounted
      change StreamInv (s.finish worker execution now)
      rcases s.finish_cases worker execution now with
        same | ⟨ref, busy, ⟨_, same⟩ | ⟨outcome, _, same⟩⟩
      · rwa [same]
      · rw [same] at accounted ⊢
        exact inv.of_quiet accounted rfl rfl rfl rfl rfl rfl
      · rw [same] at accounted ⊢
        exact inv.of_notifies accounted (notifies_concluded inv.accounted inv.hub inv.tasks busy)
  | client action =>
      obtain ⟨hub, same⟩ := s.clientStep_eq action
      have hubInv := hubInv_clientStep inv action serves
      have closed := closed_clientStep s action
      change StreamInv (s.clientStep action)
      rw [same] at hubInv closed ⊢
      exact inv.of_hub hubInv closed

/-- A task that ends while a client is there has its terminal snapshot sent last. -/
theorem terminal_last (tasks : TaskInv s) {ref : Ref} (below : ref < s.created)
    (isOver : s.finished ref = true) {since : Nat} (before : ¬FinishedBefore s ref since) :
    ∃ earlier, s.snapshots ref since = earlier ++ [s.records ref] := by
  have split : s.snapshots ref 0 =
      ((s.published.take since).filter fun entry => entry.1 = ref).map Prod.snd ++
        s.snapshots ref since := by
    unfold snapshots
    rw [← List.map_append, ← List.filter_append, List.take_append_drop]
    rfl
  have last := tasks.current ref below
  rw [split, List.getLast?_append] at last
  cases later : (s.snapshots ref since).getLast? with
  | some record =>
      rw [later] at last
      cases last
      exact List.getLast?_eq_some_iff.mp later
  | none =>
      rw [later] at last
      obtain ⟨entry, member, same⟩ := List.mem_map.mp (List.mem_of_getLast? last)
      obtain ⟨published, own⟩ := List.mem_filter.mp member
      refine absurd ⟨entry, published, of_decide_eq_true own, ?_⟩ before
      rw [same]
      exact isOver

theorem StreamInv.allServed (inv : StreamInv s) : AllServed s := by
  intro client member opened ref last
  obtain ⟨index, there⟩ := List.mem_iff_getElem?.mp member
  have clientInv := inv.hub.clients index client there
  obtain ⟨before, after⟩ := clientInv.streaming opened ref last
  have below : ref < s.created := Nat.lt_of_lt_of_le (latest_spec last).1 clientInv.tasks
  refine ⟨fun still => ⟨(before still).1, fun isOver => ?_⟩, fun isOver => ?_⟩
  · exact terminal_last inv.tasks below isOver still
  · obtain ⟨ended, frames, _⟩ := after isOver
    exact ⟨ended, frames⟩

/-- A gateway with a registry for the service and one for the pool, or one for both. -/
def fresh (serviceMax poolMax maxsize : Int) (shared : Bool) : GatewayService where
  registries := [⟨[], serviceMax, List.nodup_nil⟩, ⟨[], poolMax, List.nodup_nil⟩]
  poolRegistry := if shared then 0 else 1
  maxsize := maxsize

theorem streamInv_started (serviceMax poolMax maxsize : Int) (shared : Bool) (size : Nat) :
    StreamInv ((fresh serviceMax poolMax maxsize shared).started size) where
  accounted := accounted_started (fresh serviceMax poolMax maxsize shared) size
  tasks := by
    refine ⟨nofun, nofun, nofun, Nat.zero_lt_succ 1, nofun, ?_⟩
    intro taskId ref found
    cases found
  hub := by
    refine ⟨?_, fun _ => List.nodup_nil, nofun⟩
    intro taskId index member
    cases member

/--
In every run in which a task comes under an identifier that no unfinished task
has, and in which the streams of closed tasks begin while the registry has the
finished record, all clients are served at all times.
-/
theorem clients_served (serviceMax poolMax maxsize : Int) (shared : Bool) (size : Nat)
    (actions : List Action)
    (serves : StepsMeet step ServesStreams
      ((fresh serviceMax poolMax maxsize shared).started size) actions) :
    Throughout step AllServed ((fresh serviceMax poolMax maxsize shared).started size)
      actions := by
  have always := throughout_of_stepsMeet StreamInv
    (fun _ action inv serves => inv.step action serves)
    (streamInv_started serviceMax poolMax maxsize shared size) serves
  exact fun count => (always count).allServed

end Run

/-- A client of a running task, and one of the same task when it is finished. -/
theorem clients_served_twice :
    Throughout step AllServed ((fresh 10 10 0 true).started 1)
      [.submit { task := "task", freshId := "t", now := 0 },
        .client (.request "default" "t"), .client (.openStream 0), .take 0 1,
        .finish 0 (.returned {}) 2, .client (.receive 0),
        .client (.request "default" "t"), .client (.openStream 1)] :=
  clients_served 10 10 0 true 1 _ (by
    refine ⟨nofun, trivial, ?_, trivial, trivial, trivial, trivial, ?_, trivial⟩
    · intro c _ closed
      cases closed
    · intro c there _
      cases there
      exact ⟨_, rfl, rfl⟩)

/-- A task is submitted again under its identifier: a client of it is sent nothing. -/
theorem client_of_resubmission_unserved :
    ¬∀ actions, Throughout step AllServed ((fresh 10 10 0 true).started 1) actions := by
  intro always
  have served := always
    [.submit { task := "task", taskId := some "t", freshId := "", now := 0 }, .take 0 1,
      .finish 0 (.returned {}) 2,
      .submit { task := "task", taskId := some "t", freshId := "", now := 3 },
      .client (.request "default" "t"), .client (.openStream 0)] 6
  have client := served _ List.mem_cons_self rfl 1 rfl
  have unfinished := client.before (by unfold FinishedBefore; decide)
  exact absurd (congrArg List.length unfinished.1) (by decide)

end YouMi.Gateway.GatewayService
