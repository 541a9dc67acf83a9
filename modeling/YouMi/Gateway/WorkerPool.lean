import Mathlib.Data.List.Count
import YouMi.Gateway.Service

/-!
# What becomes of a task

A task that is submitted is waiting for room in the queue, in the queue, at one worker,
or finished, and is published once each time it gets on.  A task at which a worker was
ended by a `CancelledError` stays where it is.
-/

namespace YouMi.Gateway.GatewayService

open YouMi.Library

/-- How often a record is in each of the places where a record can be. -/
@[ext]
structure Places where
  waiting : Nat := 0
  queued : Nat := 0
  held : Nat := 0
  abandoned : Nat := 0
  deriving DecidableEq

def places (s : GatewayService) (ref : Ref) : Places where
  waiting := s.waiting.count ref
  queued := s.queue.count ref
  held := s.workers.count (.busy ref)
  abandoned := s.workers.count (.ended ref)

/-- The statuses with which a record has been published, in order. -/
def history (s : GatewayService) (ref : Ref) : List TaskStatus :=
  (s.published.filter fun entry => entry.1 = ref).map fun entry => entry.2.status

/-- What executors have done with a record, in order. -/
def executed (s : GatewayService) (ref : Ref) : List Execution :=
  (s.executions.filter fun entry => entry.1 = ref).map Prod.snd

/-- The status that a record is left with. -/
def outcomeStatus : Execution → TaskStatus
  | .returned outcome => if outcome.error = "" then .completed else .failed
  | .raised _ _ => .failed
  | .cancelled => .running

/-- The place of a task, its status, the statuses published and what was executed. -/
inductive Course : Places → TaskStatus → List TaskStatus → List Execution → Prop where
  | waiting : Course { waiting := 1 } .queued [.queued] []
  | queued : Course { queued := 1 } .queued [.queued] []
  | held : Course { held := 1 } .running [.queued, .running] []
  | abandoned : Course { abandoned := 1 } .running [.queued, .running] [.cancelled]
  | finished (execution : Execution) (uncancelled : execution ≠ .cancelled) :
      Course {} (outcomeStatus execution) [.queued, .running, outcomeStatus execution] [execution]

def Standing (s : GatewayService) (ref : Ref) : Prop :=
  Course (s.places ref) (s.records ref).status (s.history ref) (s.executed ref)

/-- A record that has not been submitted here is nowhere. -/
structure Absent (s : GatewayService) (ref : Ref) : Prop where
  place : s.places ref = {}
  published : s.history ref = []
  executions : s.executed ref = []

theorem outcomeStatus_eq_completed_iff {execution : Execution} :
    outcomeStatus execution = .completed ↔ execution.Succeeds := by
  cases execution with
  | returned outcome =>
      unfold outcomeStatus Execution.Succeeds
      dsimp only
      split
      · rename_i fine
        exact iff_of_true rfl fine
      · rename_i failed
        exact iff_of_false nofun failed
  | raised typeName message => exact iff_of_false nofun id
  | cancelled => exact iff_of_false nofun id

theorem status_conclude {execution : Execution} {outcome : TaskOutcome} {now : Rat}
    (given : execution.outcome = some outcome) (record : TaskRecord) :
    (conclude outcome now record).status = outcomeStatus execution := by
  have success := Execution.success_iff given
  unfold conclude
  dsimp only
  cases execution with
  | returned returned => exact if_congr success rfl rfl
  | raised typeName message =>
      rw [if_neg success.mp]
      rfl
  | cancelled => cases given

/-! ## One step -/

section Frame

variable {s t : GatewayService} {ref other : Ref}

theorem history_publish (index : Nat) :
    (s.publish index ref).history other =
      if ref = other then s.history other ++ [(s.records ref).status] else s.history other := by
  unfold publish history
  dsimp only
  rw [List.filter_append, List.map_append]
  by_cases same : ref = other
  · simp [same]
  · simp [same]

theorem executed_logged {execution : Execution} :
    (s.logged ref execution).executed other =
      if ref = other then s.executed other ++ [execution] else s.executed other := by
  unfold executed logged
  dsimp only
  rw [List.filter_append, List.map_append]
  by_cases same : ref = other
  · simp [same]
  · simp [same]

theorem count_snoc (refs : List Ref) :
    (refs ++ [ref]).count other = refs.count other + if ref = other then 1 else 0 := by
  rw [List.count_append, List.count_singleton]
  simp

section Workers

variable {workers : List Worker} {worker : Nat} {old : Worker}

theorem count_set_of_ne (there : workers[worker]? = some old) (state counted : Worker)
    (before : old ≠ counted) (after : state ≠ counted) :
    (workers.set worker state).count counted = workers.count counted := by
  obtain ⟨inside, rfl⟩ := List.getElem?_eq_some_iff.mp there
  rw [List.count_set inside]
  simp [before, after]

theorem count_set_into (there : workers[worker]? = some old) (state : Worker)
    (ne : old ≠ state) :
    (workers.set worker state).count state = workers.count state + 1 := by
  obtain ⟨inside, rfl⟩ := List.getElem?_eq_some_iff.mp there
  rw [List.count_set inside]
  simp [ne]

theorem count_set_out (there : workers[worker]? = some old) (state : Worker)
    (ne : state ≠ old) :
    (workers.set worker state).count old = workers.count old - 1 := by
  obtain ⟨inside, rfl⟩ := List.getElem?_eq_some_iff.mp there
  rw [List.count_set inside]
  simp [ne]

end Workers

/-- A step that does not concern a task. -/
structure Unmoved (s t : GatewayService) (ref : Ref) : Prop where
  place : t.places ref = s.places ref
  status : (t.records ref).status = (s.records ref).status
  published : t.history ref = s.history ref
  executions : t.executed ref = s.executed ref

theorem Course.standing {place : Places} {status : TaskStatus} {published : List TaskStatus}
    {executions : List Execution} (course : Course place status published executions)
    (places_eq : s.places ref = place) (status_eq : (s.records ref).status = status)
    (history_eq : s.history ref = published) (executed_eq : s.executed ref = executions) :
    Standing s ref := by
  unfold Standing
  rwa [places_eq, status_eq, history_eq, executed_eq]

theorem Standing.of_unmoved (standing : Standing s ref) (unmoved : Unmoved s t ref) :
    Standing t ref := by
  unfold Standing at standing ⊢
  rwa [unmoved.place, unmoved.status, unmoved.published, unmoved.executions]

theorem Absent.of_unmoved (absent : Absent s ref) (unmoved : Unmoved s t ref) : Absent t ref :=
  ⟨unmoved.place.trans absent.place, unmoved.published.trans absent.published,
    unmoved.executions.trans absent.executions⟩

theorem unmoved_of_events (hub : TaskEventHub) : Unmoved s { s with events := hub } ref :=
  ⟨rfl, rfl, rfl, rfl⟩

end Frame

section Step

variable {s : GatewayService} {ref : Ref}

/-- A task in the queue has been published as queued, and nothing else has happened to it. -/
theorem Standing.of_mem_queue (standing : Standing s ref) (member : ref ∈ s.queue) :
    s.places ref = { queued := 1 } ∧ (s.records ref).status = .queued ∧
      s.history ref = [.queued] ∧ s.executed ref = [] := by
  have counted : 0 < (s.places ref).queued := List.count_pos_iff.mpr member
  unfold Standing at standing
  generalize s.places ref = place, (s.records ref).status = status, s.history ref = published,
    s.executed ref = executions at standing counted ⊢
  cases standing with
  | queued => exact ⟨rfl, rfl, rfl, rfl⟩
  | waiting | held | abandoned | finished => exact absurd counted (Nat.lt_irrefl 0)

theorem Standing.of_mem_waiting (standing : Standing s ref) (member : ref ∈ s.waiting) :
    s.places ref = { waiting := 1 } ∧ (s.records ref).status = .queued ∧
      s.history ref = [.queued] ∧ s.executed ref = [] := by
  have counted : 0 < (s.places ref).waiting := List.count_pos_iff.mpr member
  unfold Standing at standing
  generalize s.places ref = place, (s.records ref).status = status, s.history ref = published,
    s.executed ref = executions at standing counted ⊢
  cases standing with
  | waiting => exact ⟨rfl, rfl, rfl, rfl⟩
  | queued | held | abandoned | finished => exact absurd counted (Nat.lt_irrefl 0)

theorem Standing.of_busy (standing : Standing s ref) {worker : Nat}
    (busy : s.workers[worker]? = some (.busy ref)) :
    s.places ref = { held := 1 } ∧ (s.records ref).status = .running ∧
      s.history ref = [.queued, .running] ∧ s.executed ref = [] := by
  have counted : 0 < (s.places ref).held :=
    List.count_pos_iff.mpr (List.mem_of_getElem? busy)
  unfold Standing at standing
  generalize s.places ref = place, (s.records ref).status = status, s.history ref = published,
    s.executed ref = executions at standing counted ⊢
  cases standing with
  | held => exact ⟨rfl, rfl, rfl, rfl⟩
  | waiting | queued | abandoned | finished => exact absurd counted (Nat.lt_irrefl 0)

theorem standing_enqueue {t : GatewayService} (nowhere : t.places ref = {})
    (status : (t.records ref).status = .queued) (published : t.history ref = [.queued])
    (executions : t.executed ref = []) : Standing (t.enqueue ref) ref := by
  obtain ⟨waiting, queued, held, abandoned⟩ := Places.ext_iff.mp nowhere
  unfold enqueue
  split
  · refine Course.waiting.standing (Places.ext ?_ queued held abandoned) status published executions
    exact (count_snoc t.waiting).trans (by rw [show t.waiting.count ref = 0 from waiting]; simp)
  · refine Course.queued.standing (Places.ext waiting ?_ held abandoned) status published executions
    exact (count_snoc t.queue).trans (by rw [show t.queue.count ref = 0 from queued]; simp)

theorem unmoved_enqueue {t : GatewayService} {other : Ref} (ne : other ≠ ref) :
    Unmoved t (t.enqueue ref) other := by
  unfold enqueue
  split
  · refine ⟨Places.ext ?_ rfl rfl rfl, rfl, rfl, rfl⟩
    exact (count_snoc t.waiting).trans (by rw [if_neg ne.symm, Nat.add_zero]; rfl)
  · refine ⟨Places.ext rfl ?_ rfl rfl, rfl, rfl, rfl⟩
    exact (count_snoc t.queue).trans (by rw [if_neg ne.symm, Nat.add_zero]; rfl)

/-! ### Submissions -/

theorem standing_submit (submission : Submission) (absent : Absent s s.created) :
    Standing (s.submit submission) s.created := by
  have current : ((s.enter submission.record).records s.created) = submission.record :=
    Function.update_self _ _ _
  refine standing_enqueue absent.place ?_ ?_ absent.executions
  · exact congrArg TaskRecord.status current
  · refine (history_publish s.serviceRegistry).trans ?_
    rw [if_pos rfl, current]
    exact congrArg (· ++ [TaskStatus.queued]) absent.published

theorem unmoved_submit (submission : Submission) (ne : ref ≠ s.created) :
    Unmoved s (s.submit submission) ref := by
  have queued := unmoved_enqueue (t := (s.enter submission.record).publish s.serviceRegistry
    s.created) ne
  refine ⟨queued.place, queued.status.trans ?_, queued.published.trans ?_, queued.executions⟩
  · exact congrArg TaskRecord.status (Function.update_of_ne ne _ _)
  · exact (history_publish s.serviceRegistry).trans (if_neg ne.symm)

/-! ### Steps of tasks that are there -/

theorem standing_resumed (standing : Standing s ref) (waits : ref ∈ s.waiting) :
    Standing (s.resumed ref) ref := by
  obtain ⟨place, status, published, executions⟩ := standing.of_mem_waiting waits
  obtain ⟨waiting, queued, held, abandoned⟩ := Places.ext_iff.mp place
  refine Course.queued.standing (Places.ext ?_ ?_ held abandoned) status published executions
  · exact List.count_erase_self.trans (congrArg (· - 1) waiting)
  · exact (count_snoc s.queue).trans (by rw [show s.queue.count ref = 0 from queued]; simp)

theorem unmoved_resumed {other : Ref} (ne : other ≠ ref) :
    Unmoved s (s.resumed ref) other := by
  refine ⟨Places.ext ?_ ?_ rfl rfl, rfl, rfl, rfl⟩
  · exact List.count_erase_of_ne ne
  · exact (count_snoc s.queue).trans (by rw [if_neg ne.symm, Nat.add_zero]; rfl)

section Taken

variable {worker : Nat} {rest : List Ref} {now : Rat}

theorem standing_taken (standing : Standing s ref) (idle : s.workers[worker]? = some .idle)
    (first : s.queue = ref :: rest) : Standing (s.taken worker ref rest now) ref := by
  obtain ⟨place, _, published, executions⟩ :=
    standing.of_mem_queue (first ▸ List.mem_cons_self)
  obtain ⟨waiting, queued, held, abandoned⟩ := Places.ext_iff.mp place
  have running : ((s.taken worker ref rest now).records ref).status = .running :=
    congrArg TaskRecord.status (Function.update_self ref _ s.records)
  refine Course.held.standing (Places.ext waiting ?_ ?_ ?_) running ?_ executions
  · have counted : s.queue.count ref = 1 := queued
    rw [first, List.count_cons_self] at counted
    exact Nat.succ.inj counted
  · exact (count_set_into idle (.busy ref) nofun).trans (congrArg (· + 1) held)
  · exact (count_set_of_ne idle (.busy ref) (.ended ref) nofun nofun).trans abandoned
  · refine (history_publish s.poolRegistry).trans ?_
    rw [if_pos rfl]
    change s.history ref ++ [((s.taken worker ref rest now).records ref).status] = _
    rw [published, running]
    rfl

theorem unmoved_taken {other : Ref} (ne : other ≠ ref) (idle : s.workers[worker]? = some .idle)
    (first : s.queue = ref :: rest) : Unmoved s (s.taken worker ref rest now) other := by
  refine ⟨Places.ext rfl ?_ ?_ ?_, ?_, ?_, rfl⟩
  · change rest.count other = s.queue.count other
    rw [first, List.count_cons_of_ne ne.symm]
  · exact count_set_of_ne idle (.busy ref) (.busy other) nofun
      fun same => ne (Worker.busy.inj same).symm
  · exact count_set_of_ne idle (.busy ref) (.ended other) nofun nofun
  · exact congrArg TaskRecord.status (Function.update_of_ne ne _ s.records)
  · exact (history_publish s.poolRegistry).trans (if_neg ne.symm)

end Taken

section Finished

variable {worker : Nat} {execution : Execution} {outcome : TaskOutcome} {now : Rat}

theorem standing_cancelled (standing : Standing s ref)
    (busy : s.workers[worker]? = some (.busy ref)) :
    Standing ((s.logged ref .cancelled).setWorker worker (.ended ref)) ref := by
  obtain ⟨place, status, published, executions⟩ := standing.of_busy busy
  obtain ⟨waiting, queued, held, abandoned⟩ := Places.ext_iff.mp place
  refine Course.abandoned.standing (Places.ext waiting queued ?_ ?_) status published ?_
  · exact (count_set_out busy (.ended ref) nofun).trans (congrArg (· - 1) held)
  · exact (count_set_into busy (.ended ref) nofun).trans (congrArg (· + 1) abandoned)
  · refine executed_logged.trans ?_
    rw [if_pos rfl, executions]
    rfl

theorem unmoved_cancelled {other : Ref} (ne : other ≠ ref)
    (busy : s.workers[worker]? = some (.busy ref)) :
    Unmoved s ((s.logged ref execution).setWorker worker (.ended ref)) other := by
  refine ⟨Places.ext rfl rfl ?_ ?_, rfl, rfl, executed_logged.trans (if_neg ne.symm)⟩
  · exact count_set_of_ne busy (.ended ref) (.busy other)
      (fun same => ne (Worker.busy.inj same).symm) nofun
  · exact count_set_of_ne busy (.ended ref) (.ended other) nofun
      fun same => ne (Worker.ended.inj same).symm

theorem standing_concluded (standing : Standing s ref)
    (busy : s.workers[worker]? = some (.busy ref)) (given : execution.outcome = some outcome) :
    Standing (s.concluded worker ref execution outcome now) ref := by
  obtain ⟨place, _, published, executions⟩ := standing.of_busy busy
  obtain ⟨waiting, queued, held, abandoned⟩ := Places.ext_iff.mp place
  have status : ((s.concluded worker ref execution outcome now).records ref).status =
      outcomeStatus execution :=
    (congrArg TaskRecord.status (Function.update_self ref _ s.records)).trans
      (status_conclude given _)
  have uncancelled : execution ≠ .cancelled := by
    rintro rfl
    cases given
  refine (Course.finished execution uncancelled).standing (Places.ext waiting queued ?_ ?_)
    status ?_ ?_
  · exact (count_set_out busy .idle nofun).trans (congrArg (· - 1) held)
  · exact (count_set_of_ne busy .idle (.ended ref) nofun nofun).trans abandoned
  · refine (history_publish s.poolRegistry).trans ?_
    rw [if_pos rfl]
    change s.history ref ++ [((s.concluded worker ref execution outcome now).records ref).status] = _
    rw [published, status]
    rfl
  · refine executed_logged.trans ?_
    rw [if_pos rfl, executions]
    rfl

theorem unmoved_concluded {other : Ref} (ne : other ≠ ref)
    (busy : s.workers[worker]? = some (.busy ref)) :
    Unmoved s (s.concluded worker ref execution outcome now) other := by
  refine ⟨Places.ext rfl rfl ?_ ?_, ?_, ?_, executed_logged.trans (if_neg ne.symm)⟩
  · exact count_set_of_ne busy .idle (.busy other)
      (fun same => ne (Worker.busy.inj same).symm) nofun
  · exact count_set_of_ne busy .idle (.ended other) nofun nofun
  · exact congrArg TaskRecord.status (Function.update_of_ne ne _ s.records)
  · exact (history_publish s.poolRegistry).trans (if_neg ne.symm)

end Finished

end Step

/-! ## Runs -/

/-- The records from `old` on, which were submitted here, are each accounted for. -/
structure Accounted (old : Nat) (s : GatewayService) : Prop where
  old_le : old ≤ s.created
  standing : ∀ ref, old ≤ ref → ref < s.created → Standing s ref
  absent : ∀ ref, ref < old ∨ s.created ≤ ref → Absent s ref

section Run

variable {old : Nat} {s t : GatewayService}

/-- One task moves, and it was there. -/
theorem Accounted.of_moved (accounted : Accounted old s) (moved : Ref)
    (created : t.created = s.created) (there : ¬Absent s moved)
    (moves : Standing s moved → Standing t moved)
    (others : ∀ ref, ref ≠ moved → Unmoved s t ref) : Accounted old t where
  old_le := created ▸ accounted.old_le
  standing := by
    intro ref from_old below
    have standing := accounted.standing ref from_old (created ▸ below)
    by_cases same : ref = moved
    · exact same ▸ moves (same ▸ standing)
    · exact standing.of_unmoved (others ref same)
  absent := by
    intro ref outside
    have absent := accounted.absent ref (created ▸ outside)
    have ne : ref ≠ moved := fun same => there (same ▸ absent)
    exact absent.of_unmoved (others ref ne)

theorem Accounted.lt_of_not_absent {ref : Ref} (accounted : Accounted old s) (there : ¬Absent s ref) :
    old ≤ ref ∧ ref < s.created := by
  by_contra outside
  exact there (accounted.absent ref
    ((not_and_or.mp outside).imp Nat.lt_of_not_le Nat.le_of_not_lt))

theorem not_absent_of_mem_queue {ref : Ref} (member : ref ∈ s.queue) : ¬Absent s ref :=
  fun absent => absurd (congrArg Places.queued absent.place)
    (Nat.ne_of_gt (List.count_pos_iff.mpr member))

theorem not_absent_of_mem_waiting {ref : Ref} (member : ref ∈ s.waiting) : ¬Absent s ref :=
  fun absent => absurd (congrArg Places.waiting absent.place)
    (Nat.ne_of_gt (List.count_pos_iff.mpr member))

theorem not_absent_of_busy {ref : Ref} {worker : Nat}
    (busy : s.workers[worker]? = some (.busy ref)) : ¬Absent s ref :=
  fun absent => absurd (congrArg Places.held absent.place)
    (Nat.ne_of_gt (List.count_pos_iff.mpr (List.mem_of_getElem? busy)))

theorem Accounted.of_events (accounted : Accounted old s) (hub : TaskEventHub) :
    Accounted old { s with events := hub } where
  old_le := accounted.old_le
  standing := fun ref from_old below =>
    (accounted.standing ref from_old below).of_unmoved (unmoved_of_events hub)
  absent := fun ref outside => (accounted.absent ref outside).of_unmoved (unmoved_of_events hub)

theorem Accounted.submit (accounted : Accounted old s) (submission : Submission) :
    Accounted old (s.submit submission) := by
  have created : (s.submit submission).created = s.created + 1 := by
    unfold GatewayService.submit enqueue
    split <;> rfl
  refine ⟨?_, fun ref from_old below => ?_, fun ref outside => ?_⟩
  · rw [created]
    exact Nat.le_succ_of_le accounted.old_le
  · by_cases same : ref = s.created
    · rw [same]
      exact standing_submit submission (accounted.absent _ (.inr (Nat.le_refl _)))
    · have before : ref < s.created := by omega
      exact (accounted.standing ref from_old before).of_unmoved (unmoved_submit submission same)
  · have ne : ref ≠ s.created := by
      have := accounted.old_le
      omega
    refine (accounted.absent ref ?_).of_unmoved (unmoved_submit submission ne)
    omega

theorem Accounted.step (accounted : Accounted old s) (action : Action) :
    Accounted old (s.step action) := by
  cases action with
  | submit submission => exact accounted.submit submission
  | resume ref =>
      change Accounted old (s.resume ref)
      rcases s.resume_cases ref with same | ⟨waits, same⟩
      · rwa [same]
      · rw [same]
        exact accounted.of_moved ref rfl (not_absent_of_mem_waiting waits)
          (fun standing => standing_resumed standing waits) fun other ne => unmoved_resumed ne
  | take worker now =>
      change Accounted old (s.take worker now)
      rcases s.take_cases worker now with same | ⟨ref, rest, idle, first, same⟩
      · rwa [same]
      · rw [same]
        have member : ref ∈ s.queue := first ▸ List.mem_cons_self
        exact accounted.of_moved ref rfl (not_absent_of_mem_queue member)
          (fun standing => standing_taken standing idle first)
          fun other ne => unmoved_taken ne idle first
  | finish worker execution now =>
      change Accounted old (s.finish worker execution now)
      rcases s.finish_cases worker execution now with
        same | ⟨ref, busy, ⟨_, same⟩ | ⟨outcome, given, same⟩⟩
      · rwa [same]
      · rw [same]
        exact accounted.of_moved ref rfl (not_absent_of_busy busy)
          (fun standing => standing_cancelled standing busy)
          fun other ne => unmoved_cancelled ne busy
      · rw [same]
        exact accounted.of_moved ref rfl (not_absent_of_busy busy)
          (fun standing => standing_concluded standing busy given)
          fun other ne => unmoved_concluded ne busy
  | client action =>
      obtain ⟨hub, same⟩ := s.clientStep_eq action
      change Accounted old (s.clientStep action)
      rw [same]
      exact accounted.of_events hub

/-- A pool that has just been started over an empty queue. -/
def started (objects : GatewayService) (size : Nat) : GatewayService :=
  { objects with
    queue := []
    waiting := []
    workers := List.replicate size .idle
    published := []
    executions := []
    written := [] }

theorem accounted_started (objects : GatewayService) (size : Nat) :
    Accounted objects.created (objects.started size) where
  old_le := Nat.le_refl _
  standing := fun _ from_old below => absurd from_old (Nat.not_le_of_gt below)
  absent := by
    intro ref _
    refine ⟨Places.ext rfl rfl ?_ ?_, rfl, rfl⟩
    · exact List.count_eq_zero.mpr fun member => nomatch List.eq_of_mem_replicate member
    · exact List.count_eq_zero.mpr fun member => nomatch List.eq_of_mem_replicate member

theorem accounted_run (objects : GatewayService) (size : Nat) (actions : List Action) :
    Accounted objects.created (run step (objects.started size) actions) :=
  Reachable.invariant (Accounted objects.created) (accounted_started objects size)
    (fun _ action accounted => accounted.step action) (Reachable.of_run _ actions)

/-- How many of its places a task is in; a task whose worker was ended is in none. -/
def presence (s : GatewayService) (ref : Ref) : Nat :=
  s.waiting.count ref + s.queue.count ref + s.workers.count (.busy ref) +
    if s.finished ref then 1 else 0

/-- What a task goes through. -/
structure Lifecycle (s : GatewayService) (ref : Ref) : Prop where
  one_place : s.presence ref + s.workers.count (.ended ref) = 1
  /-- Each status was published once, and in this order. -/
  order : ∃ last, (last = .completed ∨ last = .failed) ∧
    s.history ref <+: [.queued, .running, last]
  current : (s.history ref).getLast? = some (s.records ref).status
  completed_iff : s.finished ref = true →
    ∃ execution, s.executed ref = [execution] ∧
      ((s.records ref).status = .completed ↔ execution.Succeeds)
  left : 0 < s.workers.count (.ended ref) →
    (s.records ref).status = .running ∧ s.executed ref = [.cancelled]

section Course

variable {place : Places} {status : TaskStatus} {published : List TaskStatus}
  {executions : List Execution}

theorem outcomeStatus_cases {execution : Execution} (uncancelled : execution ≠ .cancelled) :
    outcomeStatus execution = .completed ∨ outcomeStatus execution = .failed := by
  cases execution with
  | returned outcome =>
      unfold outcomeStatus
      dsimp only
      split
      · exact .inl rfl
      · exact .inr rfl
  | raised typeName message => exact .inr rfl
  | cancelled => exact absurd rfl uncancelled

theorem finished_outcomeStatus {execution : Execution} (uncancelled : execution ≠ .cancelled) :
    (outcomeStatus execution).finished = true := by
  rcases outcomeStatus_cases uncancelled with same | same
  · rw [same]
    rfl
  · rw [same]
    rfl

namespace Course

theorem one_place (course : Course place status published executions) :
    place.waiting + place.queued + place.held + (if status.finished then 1 else 0) +
      place.abandoned = 1 := by
  cases course with
  | waiting | queued | held | abandoned => rfl
  | finished execution uncancelled =>
      rw [if_pos (finished_outcomeStatus uncancelled)]
      rfl

theorem order (course : Course place status published executions) :
    ∃ last, (last = .completed ∨ last = .failed) ∧
      published <+: [.queued, .running, last] := by
  cases course with
  | waiting | queued => exact ⟨.completed, .inl rfl, _, rfl⟩
  | held | abandoned => exact ⟨.completed, .inl rfl, _, rfl⟩
  | finished execution uncancelled =>
      exact ⟨_, outcomeStatus_cases uncancelled, List.prefix_rfl⟩

theorem current (course : Course place status published executions) :
    published.getLast? = some status := by
  cases course with
  | waiting | queued | held | abandoned | finished => rfl

theorem unfinished (course : Course place status published executions)
    (unfinished : status.finished = false) : ∀ status ∈ published, status.finished = false := by
  cases course with
  | waiting | queued | held | abandoned => decide
  | finished execution uncancelled =>
      rw [finished_outcomeStatus uncancelled] at unfinished
      cases unfinished

theorem completed_iff (course : Course place status published executions)
    (isOver : status.finished = true) :
    ∃ execution, executions = [execution] ∧ (status = .completed ↔ execution.Succeeds) := by
  cases course with
  | waiting | queued | held | abandoned => cases isOver
  | finished execution uncancelled => exact ⟨execution, rfl, outcomeStatus_eq_completed_iff⟩

theorem left (course : Course place status published executions) (ended : 0 < place.abandoned) :
    status = .running ∧ executions = [.cancelled] := by
  cases course with
  | abandoned => exact ⟨rfl, rfl⟩
  | waiting | queued | held | finished => exact absurd ended (Nat.lt_irrefl 0)

end Course

end Course

theorem Standing.lifecycle {ref : Ref} (standing : Standing s ref) : Lifecycle s ref where
  one_place := Course.one_place standing
  order := Course.order standing
  current := Course.current standing
  completed_iff := Course.completed_iff standing
  left := Course.left standing

/--
Whatever submissions, workers and clients do in whatever order, every task that
is submitted to a started pool goes through its life once.
-/
theorem submitted_lifecycle (objects : GatewayService) (size : Nat) (actions : List Action)
    (ref : Ref) (submitted : objects.created ≤ ref)
    (exists_now : ref < (run step (objects.started size) actions).created) :
    Lifecycle (run step (objects.started size) actions) ref :=
  ((accounted_run objects size actions).standing ref submitted exists_now).lifecycle

end Run

/-- A task that an executor of one worker completes. -/
theorem submitted_lifecycle_completed :
    Lifecycle (run step (started { registries := [{}] } 1)
      [.submit { task := "task", freshId := "t", now := 0 }, .take 0 1,
        .finish 0 (.returned { output := "done" }) 2]) 0 :=
  submitted_lifecycle _ _ _ 0 (Nat.le_refl 0) (by decide)

/-- The executor throws a `CancelledError`: the task is at no worker, and not finished. -/
theorem cancelled_task_nowhere :
    ¬∀ (objects : GatewayService) (size : Nat) (actions : List Action) (ref : Ref),
      objects.created ≤ ref → ref < (run step (objects.started size) actions).created →
        (run step (objects.started size) actions).presence ref = 1 := by
  intro always
  have present := always { registries := [{}] } 1
    [.submit { task := "task", freshId := "t", now := 0 }, .take 0 1, .finish 0 .cancelled 2] 0
    (Nat.le_refl 0) (by decide)
  exact absurd present (by decide)

end YouMi.Gateway.GatewayService
