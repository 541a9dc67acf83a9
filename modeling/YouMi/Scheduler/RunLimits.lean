import YouMi.Scheduler.Heartbeat

/-!
# The limits of scheduled tasks

A task counts a run when its execution begins, which is before the agent is found busy, and only
the loops look at the limit.  So a limited task is executed at most so often as long as no trigger
comes after its last run, and no skip uses up a run as long as there is none.
-/

namespace YouMi.Scheduler

open YouMi.Core YouMi.Library

/-- The call of the agent or of the handler for a task. -/
def Effect.executes (id : Nat) : Effect → Bool
  | .handles state _ => state = id
  | .runs state _ _ => state = id
  | _ => false

/-- An execution has begun for a task, and its agent is still being initialized. -/
def Await.initializes (id : Nat) : Await → Bool
  | .initialization state _ => state = id
  | _ => false

namespace HeartbeatScheduler

variable {R : Type}

/-! ## Accounts -/

/-- The runs that a task has used up. -/
def used (s : HeartbeatScheduler R) (id : Nat) : Nat :=
  (s.states[id]?.map TaskState.runCount).getD 0

/-- The most runs of a task; zero sets no limit. -/
def limit (s : HeartbeatScheduler R) (id : Nat) : Nat :=
  (s.states[id]?.map fun state => state.task.maxRuns).getD 0

def executions (s : HeartbeatScheduler R) (id : Nat) : Nat := s.effects.countP (Effect.executes id)

/-- The ticks and triggers of a task. -/
def attempts (s : HeartbeatScheduler R) (id : Nat) : Nat := s.effects.count (.executing id)

def skips (s : HeartbeatScheduler R) (id : Nat) : Nat := s.effects.count (.skips id)

/-- Each task with a limit was executed at most so often. -/
def WithinLimits (s : HeartbeatScheduler R) : Prop :=
  ∀ id, 0 < s.limit id → s.executions id ≤ s.limit id

/-- A tick or trigger that was skipped has not used up a run. -/
def SkipsFree (s : HeartbeatScheduler R) : Prop :=
  ∀ id, s.used id + s.skips id ≤ s.attempts id

/-- The task on which an action begins to execute. -/
def begins (s : HeartbeatScheduler R) : Action R → Option Nat
  | .runOnce name _ => (s.tasks.lookup name).filter fun id => s.states[id]?.isSome
  | .resume index (.returns _) _ =>
      match s.awaited index with
      | some (.turn name) => (s.tasks.lookup name).filter fun id => !s.delayed id && s.goesOn id
      | some (.delay id) => if s.goesOn id then some id else none
      | some (.interval id) => if s.goesOn id then some id else none
      | _ => none
  | _ => none

/-- The task whose agent has been initialized, with the agent. -/
def initialized (s : HeartbeatScheduler R) : Action R → Option (Nat × Nat)
  | .resume index (.returns _) _ =>
      match s.awaited index with
      | some (.initialization id agent) => some (id, agent)
      | _ => none
  | _ => none

/-- The bound agent, where tasks run it. -/
def agentFor (s : HeartbeatScheduler R) (id : Nat) : Option (Nat × Nat) :=
  if s.handler then none else s.agent.map fun agent => (id, agent)

/-- The task of what is about to run an agent that is running. -/
def busyFor (s : HeartbeatScheduler R) (about : Option (Nat × Nat)) : Option Nat :=
  about.bind fun found => if s.agents[found.2]? = some .running then some found.1 else none

/-- The task of an action that finds the agent running. -/
def findsBusy (s : HeartbeatScheduler R) (action : Action R) : Option Nat :=
  s.busyFor ((s.initialized action).or ((s.begins action).bind s.agentFor))

/-- The action triggers a task that has used up its runs. -/
def triggersSpent (s : HeartbeatScheduler R) : Action R → Bool
  | .runOnce name _ =>
      (s.tasks.lookup name).any fun id => 0 < s.limit id && s.limit id ≤ s.used id
  | _ => false

/-! ### What changes no account -/

/-- Executions that have begun for a task without a call so far. -/
def initializing (s : HeartbeatScheduler R) (id : Nat) : Nat :=
  s.coroutines.countP fun coroutine => coroutine.awaits.any (Await.initializes id)

/-- What is used up and called stays as it is, and no execution is added. -/
structure Keeps (s after : HeartbeatScheduler R) : Prop where
  used : ∀ id, after.used id = s.used id
  limit : ∀ id, after.limit id = s.limit id
  effects : after.effects = s.effects
  size : s.states.length ≤ after.states.length
  initializing : ∀ id, after.initializing id ≤ s.initializing id

/-- The accounts are of the tasks, of what was effected and of what is awaited. -/
theorem keeps_of_same {s after : HeartbeatScheduler R} (states : after.states = s.states)
    (effects : after.effects = s.effects) (coroutines : after.coroutines = s.coroutines) :
    Keeps s after where
  used := fun id => by unfold used; rw [states]
  limit := fun id => by unfold limit; rw [states]
  effects := effects
  size := by rw [states]
  initializing := fun id => by unfold initializing; rw [coroutines]

theorem Keeps.refl (s : HeartbeatScheduler R) : Keeps s s := keeps_of_same rfl rfl rfl

theorem Keeps.trans {s between after : HeartbeatScheduler R} (first : Keeps s between)
    (second : Keeps between after) : Keeps s after where
  used := fun id => (second.used id).trans (first.used id)
  limit := fun id => (second.limit id).trans (first.limit id)
  effects := second.effects.trans first.effects
  size := first.size.trans second.size
  initializing := fun id => (second.initializing id).trans (first.initializing id)

section Accounts

variable {s : HeartbeatScheduler R} {index id : Nat}

theorem used_onState {f : TaskState R → TaskState R} (other : Nat) :
    (s.onState id f).used other =
      if id = other then ((s.states[other]?.map f).map TaskState.runCount).getD 0
      else s.used other := by
  unfold used onState
  by_cases same : id = other
  · rw [if_pos same, same, List.getElem?_modify_eq]
    rfl
  · rw [if_neg same, List.getElem?_modify_ne _ _ same]

theorem limit_onState {f : TaskState R → TaskState R}
    (keeps : ∀ state, (f state).task.maxRuns = state.task.maxRuns) (other : Nat) :
    (s.onState id f).limit other = s.limit other := by
  unfold limit onState
  by_cases same : id = other
  · rw [same, List.getElem?_modify_eq]
    cases s.states[other]? with
    | none => rfl
    | some state => exact keeps state
  · rw [List.getElem?_modify_ne _ _ same]

theorem keeps_onState {f : TaskState R → TaskState R}
    (runs : ∀ state, (f state).runCount = state.runCount)
    (limits : ∀ state, (f state).task.maxRuns = state.task.maxRuns) : Keeps s (s.onState id f) where
  used := by
    intro other
    rw [used_onState]
    split
    · unfold used
      cases s.states[other]? with
      | none => rfl
      | some state => exact runs state
    · rfl
  limit := limit_onState limits
  effects := rfl
  size := by
    unfold onState
    rw [List.length_modify]
  initializing := fun _ => le_rfl

/-- One element is counted as it was before and as it is afterwards. -/
theorem countP_modify {α : Type} {p : α → Bool} {f : α → α} {items : List α} {item : α}
    (stands : items[index]? = some item) :
    (items.modify index f).countP p + (if p item then 1 else 0) =
      items.countP p + if p (f item) then 1 else 0 := by
  induction items generalizing index with
  | nil => cases stands
  | cons first rest ih =>
      cases index with
      | zero =>
          obtain rfl := Option.some.inj stands
          rw [List.modify_zero_cons, List.countP_cons, List.countP_cons]
          omega
      | succ index =>
          rw [List.modify_succ_cons, List.countP_cons, List.countP_cons]
          have later := ih stands
          omega

theorem initializing_onCoroutine (s : HeartbeatScheduler R) (index : Nat)
    (f : Coroutine R → Coroutine R) (other : Nat) :
    (s.onCoroutine index f).initializing other +
        (if (s.awaited index).any (Await.initializes other) then 1 else 0) =
      s.initializing other +
        if (s.coroutines[index]?.bind fun coroutine => (f coroutine).awaits).any
          (Await.initializes other) then 1 else 0 := by
  unfold onCoroutine initializing awaited
  cases stands : s.coroutines[index]? with
  | none =>
      rw [List.modify_eq_self (List.getElem?_eq_none_iff.mp stands)]
      rfl
  | some coroutine => exact countP_modify stands

theorem keeps_answer (answer : Except String (Option R)) :
    Keeps s (s.onCoroutine index fun coroutine => { coroutine with answer := some answer }) where
  used := fun _ => rfl
  limit := fun _ => rfl
  effects := rfl
  size := le_rfl
  initializing := by
    intro other
    have counts := initializing_onCoroutine s index
      (fun coroutine => { coroutine with answer := some answer }) other
    exact (Nat.add_right_cancel counts).le

theorem initializing_waits_le (s : HeartbeatScheduler R) (index : Nat) (await : Option Await)
    (other : Nat) : (s.waits index await).initializing other ≤
      s.initializing other + if await.any (Await.initializes other) then 1 else 0 := by
  have counts := initializing_onCoroutine s index
    (fun coroutine => { coroutine with awaits := await }) other
  unfold waits
  cases stands : s.coroutines[index]? with
  | none =>
      rw [stands] at counts
      simp only [Option.bind_none, Option.any_none, Bool.false_eq_true, if_false] at counts
      omega
  | some coroutine =>
      rw [stands, Option.bind_some] at counts
      dsimp only at counts
      omega

/-- A coroutine that goes on no longer waits for what it awaited. -/
theorem initializing_take {await : Await} (awaits : s.awaited index = some await) (other : Nat) :
    (s.waits index none).initializing other + (if await.initializes other then 1 else 0) =
      s.initializing other := by
  have counts := initializing_onCoroutine s index
    (fun coroutine => { coroutine with awaits := none }) other
  obtain ⟨coroutine, stands, _⟩ := Option.bind_eq_some_iff.mp awaits
  rw [stands, awaits] at counts
  exact counts

theorem keeps_waits {await : Option Await}
    (inert : ∀ other, await.any (Await.initializes other) = false) :
    Keeps s (s.waits index await) where
  used := fun _ => rfl
  limit := fun _ => rfl
  effects := rfl
  size := le_rfl
  initializing := by
    intro other
    have fewer := initializing_waits_le s index await other
    rwa [inert other] at fewer

theorem keeps_finish (answer : Except String (Option R)) : Keeps s (s.finish index id answer) := by
  unfold finish
  split
  · split
    · cases answer with
      | ok result =>
          dsimp only
          split <;> exact keeps_waits fun _ => rfl
      | error error =>
          have noted : Keeps s (s.onState id fun state => { state with lastError := some error }) :=
            keeps_onState (fun _ => rfl) fun _ => rfl
          dsimp only
          split <;> exact noted.trans (keeps_waits fun _ => rfl)
    · exact keeps_answer answer
  · exact .refl s

theorem keeps_complete (result : Option R) : Keeps s (s.complete index id result) :=
  have noted : Keeps s (s.onState id fun state => { state with lastResult := result }) :=
    keeps_onState (fun _ => rfl) fun _ => rfl
  noted.trans (keeps_finish _)

/-! ### Moves -/

/-- One for the task, and nothing for the others. -/
def tally (task : Option Nat) (id : Nat) : Nat := if task = some id then 1 else 0

/-- What a part of a step adds to the accounts: the executions it begins and the skips.  `hand`
and `left` are the execution that has begun, but has neither called nor waits, before and
afterwards. -/
structure Moves (s after : HeartbeatScheduler R) (hand left begun skipped : Nat → Nat) : Prop where
  used : ∀ id, after.used id = s.used id + begun id
  attempts : ∀ id, after.attempts id = s.attempts id + begun id
  skips : ∀ id, after.skips id = s.skips id + skipped id
  calls : ∀ id, after.executions id + after.initializing id + left id ≤
    s.executions id + s.initializing id + hand id + begun id
  size : s.states.length ≤ after.states.length
  limit : ∀ id, id < s.states.length → after.limit id = s.limit id

theorem Moves.trans {between after : HeartbeatScheduler R}
    {hand middle left begun begun' skipped skipped' : Nat → Nat}
    (first : Moves s between hand middle begun skipped)
    (second : Moves between after middle left begun' skipped') :
    Moves s after hand left (begun + begun') (skipped + skipped') where
  used := fun id => by rw [second.used, first.used, Pi.add_apply, Nat.add_assoc]
  attempts := fun id => by rw [second.attempts, first.attempts, Pi.add_apply, Nat.add_assoc]
  skips := fun id => by rw [second.skips, first.skips, Pi.add_apply, Nat.add_assoc]
  calls := by
    intro id
    have before := first.calls id
    have later := second.calls id
    rw [Pi.add_apply]
    omega
  size := first.size.trans second.size
  limit := fun id old => (second.limit id (old.trans_le first.size)).trans (first.limit id old)

theorem Keeps.moves {after : HeartbeatScheduler R} (keeps : Keeps s after) (hand : Nat → Nat) :
    Moves s after hand hand 0 0 where
  used := keeps.used
  attempts := fun id => by unfold attempts; rw [keeps.effects]; rfl
  skips := fun id => by unfold skips; rw [keeps.effects]; rfl
  calls := by
    intro id
    have fewer := keeps.initializing id
    unfold executions
    rw [keeps.effects, Pi.zero_apply]
    omega
  size := keeps.size
  limit := fun id _ => keeps.limit id

theorem Moves.quiet {between after : HeartbeatScheduler R} {hand left begun skipped : Nat → Nat}
    (moves : Moves s between hand left begun skipped) (keeps : Keeps between after) :
    Moves s after hand left begun skipped := moves.trans (keeps.moves left)

/-- What has begun is called or skipped. -/
theorem Moves.then {between after : HeartbeatScheduler R}
    {hand middle left begun skipped : Nat → Nat} (first : Moves s between hand middle begun 0)
    (second : Moves between after middle left 0 skipped) :
    Moves s after hand left begun skipped := by
  simpa only [zero_add, add_zero] using first.trans second

theorem Keeps.then {between after : HeartbeatScheduler R} {hand left begun skipped : Nat → Nat}
    (keeps : Keeps s between) (moves : Moves between after hand left begun skipped) :
    Moves s after hand left begun skipped := by
  simpa only [zero_add] using (keeps.moves hand).trans moves

/-- What is in hand is dropped. -/
theorem Moves.drop {after : HeartbeatScheduler R} {hand left begun skipped : Nat → Nat}
    (moves : Moves s after hand left begun skipped) : Moves s after hand 0 begun skipped :=
  { moves with
    calls := fun id => le_trans (Nat.add_le_add_left (Nat.zero_le _) _) (moves.calls id) }

/-- A task uses up a run as its execution begins. -/
theorem moves_charge (stands : s.states[id]?.isSome) (now : Rat) :
    Moves s (s.charge id now) 0 (tally (some id)) (tally (some id)) 0 where
  used := by
    intro other
    unfold charge
    rw [used_onState]
    by_cases same : id = other
    · subst same
      obtain ⟨state, isState⟩ := Option.isSome_iff_exists.mp stands
      unfold used record tally
      rw [if_pos rfl, if_pos rfl, isState]
      rfl
    · unfold tally
      rw [if_neg same, if_neg fun equal => same (Option.some.inj equal)]
      rfl
  attempts := by
    intro other
    unfold charge attempts record onState tally
    rw [List.count_append, List.count_singleton]
    simp
  skips := by
    intro other
    unfold charge skips record onState
    rw [List.count_append, List.count_singleton]
    rfl
  calls := by
    intro other
    have same_calls : (s.charge id now).executions other = s.executions other := by
      unfold charge executions record onState
      rw [List.countP_append]
      rfl
    have same_initializing : (s.charge id now).initializing other = s.initializing other := rfl
    rw [same_calls, same_initializing, Pi.zero_apply]
    exact le_rfl
  size := by
    unfold charge onState
    rw [List.length_modify]
    exact le_rfl
  limit := by
    intro other _
    refine (limit_onState ?_ other).trans rfl
    exact fun _ => rfl

/-- The execution in hand calls the agent or the handler. -/
theorem moves_call {effect : Effect}
    (calls : ∀ other, effect.executes other = decide (some id = some other)) :
    Moves s (s.record effect) (tally (some id)) 0 0 0 := by
  have noted (kind : Effect) (uncalled : kind.executes id = false) :
      (s.record effect).effects.count kind = s.effects.count kind := by
    unfold record
    rw [List.count_append, List.count_singleton, if_neg]
    · rfl
    · intro same
      rw [beq_iff_eq] at same
      have called := calls id
      rw [same, uncalled] at called
      simp at called
  refine ⟨fun _ => rfl, fun other => noted (.executing other) rfl,
    fun other => noted (.skips other) rfl, fun other => ?_, le_rfl, fun _ _ => rfl⟩
  have more : (s.record effect).executions other = s.executions other + tally (some id) other := by
    unfold record executions tally
    rw [List.countP_append, List.countP_singleton, calls other]
    simp
  have same_initializing : (s.record effect).initializing other = s.initializing other := rfl
  rw [more, same_initializing, Pi.zero_apply]
  omega

/-- The execution in hand is skipped. -/
theorem moves_skip : Moves s (s.record (.skips id)) (tally (some id)) 0 0 (tally (some id)) where
  used := fun _ => rfl
  attempts := by
    intro other
    unfold attempts record
    rw [List.count_append, List.count_singleton]
    rfl
  skips := by
    intro other
    unfold skips record tally
    rw [List.count_append, List.count_singleton]
    simp
  calls := by
    intro other
    have same_calls : (s.record (.skips id)).executions other = s.executions other := by
      unfold executions record
      rw [List.countP_append]
      rfl
    have same_initializing : (s.record (.skips id)).initializing other = s.initializing other := rfl
    rw [same_calls, same_initializing, Pi.zero_apply]
    omega
  size := le_rfl
  limit := fun _ _ => rfl

/-- The execution in hand waits for its agent. -/
theorem moves_initialization (agent : Nat) :
    Moves s (s.waits index (some (.initialization id agent))) (tally (some id)) 0 0 0 := by
  refine ⟨fun _ => rfl, fun _ => rfl, fun _ => rfl, fun other => ?_, le_rfl, fun _ _ => rfl⟩
  have more := initializing_waits_le s index (some (.initialization id agent)) other
  have same_calls : (s.waits index (some (.initialization id agent))).executions other =
      s.executions other := rfl
  have one : (if Option.any (Await.initializes other) (some (.initialization id agent)) then 1
      else 0) = tally (some id) other := by
    simp [tally, Await.initializes]
  rw [one] at more
  rw [same_calls, Pi.zero_apply]
  omega

/-- A coroutine that goes on has in hand what it has begun. -/
theorem moves_take {agent : Nat} (awaits : s.awaited index = some (.initialization id agent)) :
    Moves s (s.waits index none) 0 (tally (some id)) 0 0 := by
  refine ⟨fun _ => rfl, fun _ => rfl, fun _ => rfl, fun other => ?_, le_rfl, fun _ _ => rfl⟩
  have taken := initializing_take awaits other
  have same_calls : (s.waits index none).executions other = s.executions other := rfl
  have one : (if Await.initializes other (.initialization id agent) then 1 else 0) =
      tally (some id) other := by
    simp [tally, Await.initializes]
  rw [one] at taken
  rw [same_calls, Pi.zero_apply]
  omega

/-! ### Steps -/

theorem moves_runAgent (agent : Nat) :
    Moves s (s.runAgent index id agent) (tally (some id)) 0 0
      (tally (s.busyFor (some (id, agent)))) := by
  unfold runAgent busyFor
  rw [Option.bind_some]
  split
  · have noted :
        Keeps s (s.onState id fun state => { state with lastError := some "Agent is busy" }) :=
      keeps_onState (fun _ => rfl) fun _ => rfl
    exact (noted.then moves_skip).quiet (keeps_finish _)
  · cases s.states[id]? with
    | none => exact ((Keeps.refl s).moves _).drop
    | some state =>
        exact (moves_call fun _ => by simp [Effect.executes]).quiet (keeps_waits fun _ => rfl)

theorem moves_executeTask (stands : s.states[id]?.isSome) (now : Rat) :
    Moves s (s.executeTask index id now) 0 0 (tally (some id))
      (tally (s.busyFor (s.agentFor id))) := by
  have charged := moves_charge stands now
  unfold executeTask agentFor
  obtain ⟨state, isState⟩ := Option.isSome_iff_exists.mp stands
  rw [isState]
  dsimp only
  by_cases handled : s.handler = true
  · have same : (s.charge id now).handler = true := handled
    rw [if_pos handled, if_pos same]
    exact (charged.then (moves_call fun _ => by simp [Effect.executes])).quiet
      (keeps_waits fun _ => rfl)
  · have same : ¬(s.charge id now).handler = true := handled
    rw [if_neg handled, if_neg same]
    have same_agent : (s.charge id now).agent = s.agent := rfl
    have same_agents : (s.charge id now).agents = s.agents := rfl
    rw [same_agent]
    cases s.agent with
    | none => exact charged.drop.quiet (keeps_finish _)
    | some agent =>
        dsimp only
        split
        · rename_i created
          rw [same_agents] at created
          have free : s.busyFor (some (id, agent)) = none := by
            unfold busyFor
            rw [Option.bind_some, created]
            rfl
          rw [Option.map_some, free]
          exact charged.then (moves_initialization agent)
        · exact charged.then (moves_runAgent agent)

/-- A loop goes on with a task that there is. -/
theorem stands_of_goesOn (goes : s.goesOn id = true) : s.states[id]?.isSome := by
  unfold goesOn at goes
  cases stands : s.states[id]? with
  | none => simp [stands] at goes
  | some state => rfl

theorem moves_nextRun (now : Rat) :
    Moves s (s.nextRun index id now) 0 0 (tally (if s.goesOn id then some id else none))
      (tally (s.busyFor ((if s.goesOn id then some id else none).bind s.agentFor))) := by
  unfold nextRun
  split
  · rename_i goes
    exact moves_executeTask (stands_of_goesOn goes) now
  · exact (keeps_waits fun _ => rfl).moves 0

/-- An action that begins nothing and runs nothing changes no account. -/
theorem moves_of_keeps {after : HeartbeatScheduler R} {action : Action R} (keeps : Keeps s after)
    (begins : s.begins action = none) (initialized : s.initialized action = none) :
    Moves s after 0 0 (tally (s.begins action)) (tally (s.findsBusy action)) := by
  have free : s.findsBusy action = none := by
    unfold findsBusy
    rw [begins, initialized]
    rfl
  rw [begins, free]
  exact keeps.moves 0

/-- An action that begins an execution adds what the execution adds. -/
theorem moves_of_begins {after : HeartbeatScheduler R} {action : Action R} {task : Option Nat}
    (begins : s.begins action = task) (initialized : s.initialized action = none)
    (moves : Moves s after 0 0 (tally task) (tally (s.busyFor (task.bind s.agentFor)))) :
    Moves s after 0 0 (tally (s.begins action)) (tally (s.findsBusy action)) := by
  unfold findsBusy
  rw [begins, initialized, Option.none_or]
  exact moves

/-- A coroutine goes on with the next run of a task. -/
theorem moves_resumed (id : Nat) (now : Rat) :
    Moves s ((s.waits index none).nextRun index id now) 0 0
      (tally (if s.goesOn id then some id else none))
      (tally (s.busyFor ((if s.goesOn id then some id else none).bind s.agentFor))) :=
  have stopped : Keeps s (s.waits index none) := keeps_waits fun _ => rfl
  stopped.then (moves_nextRun now)

/-- A loop looks for its task, and waits where the task begins later. -/
theorem moves_turn {name : String} (awaits : s.awaited index = some (.turn name))
    (result : Option R) (now : Rat) :
    Moves s ((s.waits index none).goOn index now result (.turn name)) 0 0
      (tally (s.begins (.resume index (.returns result) now)))
      (tally (s.findsBusy (.resume index (.returns result) now))) := by
  have stopped : Keeps s (s.waits index none) := keeps_waits fun _ => rfl
  have nothing : s.initialized (.resume index (.returns result) now) = none := by
    simp only [initialized, awaits]
  unfold goOn
  dsimp only
  have same_tasks : (s.waits index none).tasks = s.tasks := rfl
  rw [same_tasks]
  cases found : s.tasks.lookup name with
  | none =>
      refine moves_of_keeps stopped ?_ nothing
      simp only [begins, awaits, found, Option.filter_none]
  | some id =>
      dsimp only
      have same_delayed : (s.waits index none).delayed id = s.delayed id := rfl
      rw [same_delayed]
      cases delayed : s.delayed id with
      | true =>
          refine moves_of_keeps (stopped.trans (keeps_waits fun _ => rfl)) ?_ nothing
          simp [begins, awaits, found, delayed]
      | false =>
          refine moves_of_begins ?_ nothing (moves_resumed id now)
          simp [begins, awaits, found, delayed, Option.filter_some]

/-- The coroutine runs up to its next `await`. -/
theorem moves_goOn {await : Await} (awaits : s.awaited index = some await) (result : Option R)
    (now : Rat) : Moves s ((s.waits index none).goOn index now result await) 0 0
      (tally (s.begins (.resume index (.returns result) now)))
      (tally (s.findsBusy (.resume index (.returns result) now))) := by
  have stopped : Keeps s (s.waits index none) := keeps_waits fun _ => rfl
  cases await with
  | turn name => exact moves_turn awaits result now
  | delay id =>
      refine moves_of_begins ?_ ?_ (moves_resumed id now)
      · simp only [begins, awaits]
      · simp only [initialized, awaits]
  | interval id =>
      refine moves_of_begins ?_ ?_ (moves_resumed id now)
      · simp only [begins, awaits]
      · simp only [initialized, awaits]
  | handler id =>
      refine moves_of_keeps (stopped.trans (keeps_complete result)) ?_ ?_
      · simp only [begins, awaits]
      · simp only [initialized, awaits]
  | initialization id agent =>
      have nothing : s.begins (.resume index (.returns result) now) = none := by
        simp only [begins, awaits]
      have about : s.initialized (.resume index (.returns result) now) = some (id, agent) := by
        simp only [initialized, awaits]
      unfold findsBusy
      rw [nothing, about, Option.some_or]
      exact (moves_take awaits).then (moves_runAgent agent)
  | run id agent =>
      have reset : Keeps (s.waits index none) ((s.waits index none).resetAgent agent) :=
        keeps_of_same rfl rfl rfl
      refine moves_of_keeps ((stopped.trans reset).trans (keeps_complete result)) ?_ ?_
      · simp only [begins, awaits]
      · simp only [initialized, awaits]

theorem moves_resume (answer : Answer R) (now : Rat) :
    Moves s (s.resume index answer now) 0 0 (tally (s.begins (.resume index answer now)))
      (tally (s.findsBusy (.resume index answer now))) := by
  unfold resume
  cases awaits : s.awaited index with
  | none =>
      refine moves_of_keeps (.refl s) ?_ ?_
      · cases answer with
        | returns result => simp only [begins, awaits]
        | _ => rfl
      · cases answer with
        | returns result => simp only [initialized, awaits]
        | _ => rfl
  | some await =>
      have stopped : Keeps s (s.waits index none) := keeps_waits fun _ => rfl
      cases answer with
      | cancelled => exact moves_of_keeps stopped rfl rfl
      | raises error =>
          dsimp only
          cases await.calledFor with
          | none => exact moves_of_keeps stopped rfl rfl
          | some id => exact moves_of_keeps (stopped.trans (keeps_finish _)) rfl rfl
      | returns result => exact moves_goOn awaits result now

theorem moves_runOnce (name : String) (now : Rat) :
    Moves s (s.runOnce name now) 0 0 (tally (s.begins (.runOnce name now)))
      (tally (s.findsBusy (.runOnce name now))) := by
  unfold runOnce
  cases found : s.tasks.lookup name with
  | none =>
      refine moves_of_keeps (.refl s) ?_ rfl
      simp only [begins, found, Option.filter_none]
  | some id =>
      have triggered : Keeps s (s.spawn { loop := false }) := by
        refine ⟨fun _ => rfl, fun _ => rfl, rfl, le_rfl, fun other => ?_⟩
        unfold initializing spawn
        rw [List.countP_append]
        exact le_rfl
      dsimp only
      by_cases stands : s.states[id]?.isSome
      · have begin : s.begins (.runOnce name now) = some id := by
          simp [begins, found, Option.filter_some, stands]
        have same : (s.spawn { loop := false }).states[id]?.isSome := stands
        exact moves_of_begins begin rfl (triggered.then (moves_executeTask same now))
      · refine moves_of_keeps ?_ ?_ rfl
        · unfold executeTask
          have missing : (s.spawn { loop := false }).states[id]? = none :=
            Option.not_isSome_iff_eq_none.mp stands
          rw [missing]
          exact triggered
        · simp [begins, found, Option.filter_some, stands]

/-- A new task has used up nothing. -/
theorem moves_addTask (task : ScheduledTask) : Moves s (s.addTask task) 0 0 0 0 := by
  unfold addTask
  split
  · exact (Keeps.refl s).moves 0
  · refine ⟨fun id => ?_, fun _ => rfl, fun _ => rfl, fun _ => le_rfl, ?_, fun id old => ?_⟩
    · unfold used
      rw [List.getElem?_append]
      split
      · rfl
      · rename_i beyond
        rw [List.getElem?_eq_none (Nat.le_of_not_lt beyond)]
        cases id - s.states.length <;> rfl
    · rw [List.length_append]
      exact Nat.le_add_right _ _
    · unfold limit
      rw [List.getElem?_append_left old]

theorem keeps_removeTask (name : String) : Keeps s (s.removeTask name) := by
  unfold removeTask
  cases s.tasks.lookup name with
  | none => exact .refl s
  | some id =>
      have forgotten : Keeps s { s with tasks := s.tasks.erase name } :=
        keeps_of_same rfl rfl rfl
      dsimp only
      refine forgotten.trans (keeps_onState ?_ ?_)
      · exact fun _ => rfl
      · exact fun _ => rfl

theorem keeps_enableTask (name : String) (enabled : Bool) :
    Keeps s (s.enableTask name enabled) := by
  unfold enableTask
  cases s.tasks.lookup name with
  | none => exact .refl s
  | some id => exact keeps_onState (fun _ => rfl) fun _ => rfl

theorem keeps_start : Keeps s s.start := by
  unfold start
  split
  · exact .refl s
  · refine ⟨fun _ => rfl, fun _ => rfl, rfl, le_rfl, fun other => ?_⟩
    have none (active : List (String × Nat)) : (active.map fun entry =>
        ({ loop := true, awaits := some (.turn entry.1) } : Coroutine R)).countP (fun coroutine =>
          coroutine.awaits.any (Await.initializes other)) = 0 := by
      rw [List.countP_map]
      exact List.countP_eq_zero.mpr fun _ _ => nofun
    unfold initializing
    dsimp only
    rw [List.countP_append, none, Nat.add_zero]

/-- A step uses up a run of the task on which it begins, and skips it where it finds the agent
busy. -/
theorem moves_step (action : Action R) :
    Moves s (step s action) 0 0 (tally (s.begins action)) (tally (s.findsBusy action)) := by
  cases action with
  | addTask task => exact moves_addTask task
  | removeTask name => exact moves_of_keeps (keeps_removeTask name) rfl rfl
  | enableTask name enabled => exact moves_of_keeps (keeps_enableTask name enabled) rfl rfl
  | start => exact moves_of_keeps keeps_start rfl rfl
  | runOnce name now => exact moves_runOnce name now
  | resume index answer now => exact moves_resume answer now
  | bindAgent agent => exact moves_of_keeps (keeps_of_same rfl rfl rfl) rfl rfl
  | stop => exact moves_of_keeps (keeps_of_same rfl rfl rfl) rfl rfl
  | agentStatus agent status => exact moves_of_keeps (keeps_of_same rfl rfl rfl) rfl rfl

end Accounts

/-! ## Runs -/

/-- A scheduler without tasks, among agents in any state. -/
def create (handler : Bool) (agents : List AgentStatus) : HeartbeatScheduler R where
  handler := handler
  agents := agents

/-- Every attempt uses up a run, and every call comes from an attempt. -/
structure Accounted (s : HeartbeatScheduler R) : Prop where
  counted : ∀ id, s.attempts id = s.used id
  called : ∀ id, s.executions id + s.initializing id ≤ s.used id

/-- No limited task has used up more runs than it has. -/
def UsedWithinLimits (s : HeartbeatScheduler R) : Prop :=
  ∀ id, 0 < s.limit id → s.used id ≤ s.limit id

section Laws

variable {s : HeartbeatScheduler R} {action : Action R}

theorem accounted_create (handler : Bool) (agents : List AgentStatus) :
    Accounted (create handler agents : HeartbeatScheduler R) :=
  ⟨fun _ => rfl, fun _ => le_rfl⟩

theorem accounted_step (accounted : Accounted s) (action : Action R) :
    Accounted (step s action) := by
  have moves := moves_step (s := s) action
  refine ⟨fun id => ?_, fun id => ?_⟩
  · rw [moves.attempts, moves.used, accounted.counted]
  · have calls := moves.calls id
    have called := accounted.called id
    rw [moves.used]
    rw [Pi.zero_apply] at calls
    omega

/-- Where every attempt uses up a run, none is free unless nothing was skipped. -/
theorem Accounted.skipsFree_iff (accounted : Accounted s) :
    s.SkipsFree ↔ ∀ id, s.skips id = 0 := by
  refine forall_congr' fun id => ?_
  rw [accounted.counted]
  omega

/-- A loop that goes on has a run left. -/
theorem left_of_goesOn {id : Nat} (goes : s.goesOn id = true) :
    0 < s.limit id → s.used id < s.limit id := by
  intro limited
  unfold goesOn at goes
  unfold limit used at *
  cases stands : s.states[id]? with
  | none =>
      rw [stands] at limited
      exact absurd limited (Nat.lt_irrefl 0)
  | some state =>
      rw [stands] at goes limited
      simp only [Option.map_some, Option.getD_some, Option.any_some] at goes limited ⊢
      unfold TaskState.isComplete at goes
      by_contra spent
      simp [limited, Nat.le_of_not_lt spent] at goes

/-- A coroutine begins only in a loop that goes on. -/
theorem goesOn_of_begins {index id : Nat} {answer : Answer R} {now : Rat}
    (begins : s.begins (.resume index answer now) = some id) : s.goesOn id = true := by
  cases answer with
  | raises error => cases begins
  | cancelled => cases begins
  | returns result =>
      unfold HeartbeatScheduler.begins at begins
      dsimp only at begins
      split at begins
      · obtain ⟨_, passes⟩ := Option.filter_eq_some_iff.mp begins
        exact (Bool.and_eq_true _ _ ▸ passes).2
      · obtain ⟨goes, same⟩ := Option.ite_none_right_eq_some.mp begins
        exact Option.some.inj same ▸ goes
      · obtain ⟨goes, same⟩ := Option.ite_none_right_eq_some.mp begins
        exact Option.some.inj same ▸ goes
      · cases begins

/-- Nothing is begun on a task but with a run left. -/
theorem left_of_begins {id : Nat} (unspent : s.triggersSpent action = false)
    (begins : s.begins action = some id) : 0 < s.limit id → s.used id < s.limit id := by
  cases action with
  | runOnce name now =>
      intro limited
      obtain ⟨found, _⟩ := Option.filter_eq_some_iff.mp begins
      unfold triggersSpent at unspent
      dsimp only at unspent
      rw [found, Option.any_some] at unspent
      simpa [limited] using unspent
  | resume index answer now => exact left_of_goesOn (goesOn_of_begins begins)
  | _ => cases begins

theorem stands_of_begins {id : Nat} (begins : s.begins action = some id) :
    s.states[id]?.isSome := by
  cases action with
  | runOnce name now => exact (Option.filter_eq_some_iff.mp begins).2
  | resume index answer now => exact stands_of_goesOn (goesOn_of_begins begins)
  | _ => cases begins

theorem usedWithinLimits_step (within : s.UsedWithinLimits)
    (unspent : s.triggersSpent action = false) : (step s action).UsedWithinLimits := by
  intro id limited
  have moves := moves_step (s := s) action
  have used := moves.used id
  by_cases old : id < s.states.length
  · rw [moves.limit id old] at limited ⊢
    rw [used]
    unfold tally
    split
    · rename_i begins
      exact left_of_begins unspent begins limited
    · exact within id limited
  · -- A task that is new has used up nothing.
    have unused : s.used id = 0 := by
      unfold HeartbeatScheduler.used
      rw [List.getElem?_eq_none (Nat.le_of_not_lt old)]
      rfl
    have idle : s.begins action ≠ some id := by
      intro begins
      have stands := stands_of_begins begins
      rw [List.getElem?_eq_none (Nat.le_of_not_lt old)] at stands
      cases stands
    rw [used, unused, tally, if_neg idle]
    exact Nat.zero_le _

/-- A skip uses up a run. -/
theorem skipsFree_step_iff (accounted : Accounted s) (free : s.SkipsFree) (action : Action R) :
    (step s action).SkipsFree ↔ s.findsBusy action = none := by
  have unskipped := accounted.skipsFree_iff.mp free
  have skips := (moves_step (s := s) action).skips
  rw [(accounted_step accounted action).skipsFree_iff]
  cases busy : s.findsBusy action with
  | none =>
      refine iff_of_true (fun id => ?_) rfl
      rw [skips, unskipped, busy]
      rfl
  | some id =>
      refine iff_of_false (fun none => ?_) nofun
      have one := skips id
      rw [none, unskipped, busy, tally, if_pos rfl] at one
      cases one

theorem withinLimits_of_used (accounted : Accounted s) (within : s.UsedWithinLimits) :
    s.WithinLimits := by
  intro id limited
  have called := accounted.called id
  have used := within id limited
  omega

end Laws

/-- In every run a limited task is executed at most so often as long as no trigger comes after
its last run; and nothing that was skipped has used up a run exactly if no agent is found busy. -/
theorem withinLimits_and_skipsFree (handler : Bool) (agents : List AgentStatus)
    (actions : List (Action R)) :
    (StepsMeet step (fun s action => s.triggersSpent action = false) (create handler agents)
        actions → Throughout step WithinLimits (create handler agents) actions) ∧
      (Throughout step SkipsFree (create handler agents) actions ↔
        StepsMeet step (fun s action => s.findsBusy action = none) (create handler agents)
          actions) := by
  have accounted : Accounted (create handler agents : HeartbeatScheduler R) :=
    accounted_create handler agents
  constructor
  · intro unspent
    have always := throughout_of_stepsMeet (fun s : HeartbeatScheduler R =>
      Accounted s ∧ s.UsedWithinLimits)
      (fun _ action keep unspent => ⟨accounted_step keep.1 action,
        usedWithinLimits_step keep.2 unspent⟩)
      ⟨accounted, fun _ limited => absurd limited (Nat.lt_irrefl 0)⟩ unspent
    exact fun count => withinLimits_of_used (always count).1 (always count).2
  · exact throughout_iff_stepsMeet Accounted SkipsFree
      (fun _ action keep => accounted_step keep action)
      (fun _ action keep free => skipsFree_step_iff keep free action) accounted
      (fun _ => le_rfl) actions

/-! ## Disturbances -/

/-- A task that may run once. -/
def onceOnly : ScheduledTask where
  name := "check"
  intervalSeconds := 1
  taskDescription := "check"
  maxRuns := 1

/-- The task is triggered again when its agent has ended the run. -/
def triggeredTwice : List (Action Unit) :=
  [.addTask onceOnly, .bindAgent 0, .runOnce "check" 0, .agentStatus 0 .running,
    .agentStatus 0 .completed, .resume 0 (.returns none) 1, .runOnce "check" 2]

/-- The first tick of the task finds its agent busy. -/
def busyTick : List (Action Unit) :=
  [.addTask onceOnly, .bindAgent 0, .start, .agentStatus 0 .running, .resume 0 (.returns none) 1]

theorem not_withinLimits_not_skipsFree :
    ¬Throughout step WithinLimits (create false [.idle]) triggeredTwice ∧
      ¬Throughout step SkipsFree (create false [.idle]) busyTick := by
  constructor
  · intro always
    exact absurd (always 7 0) (by decide +kernel)
  · intro always
    exact absurd (always 5 0) (by decide +kernel)

theorem withinLimits_and_skipsFree_once :
    Throughout step WithinLimits (create false [.idle]) (triggeredTwice.take 6) ∧
      Throughout step SkipsFree (create false [.idle]) (triggeredTwice.take 6) := by
  have run := withinLimits_and_skipsFree false [.idle] (triggeredTwice.take 6)
  exact ⟨run.1 (by decide +kernel), run.2.mpr (by decide +kernel)⟩

end HeartbeatScheduler

end YouMi.Scheduler
