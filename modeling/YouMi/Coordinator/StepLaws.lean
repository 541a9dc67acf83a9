import YouMi.Coordinator.Plan

/-!
# One step of a workflow

What holds of the coroutine of a step at each point where it can wait: the attempts
it has made, that none of them has succeeded yet, and the status that they leave.
-/

namespace YouMi.Coordinator

open YouMi.Library

/-! ## Outcomes -/

namespace Outcome

def succeeds : Outcome → Bool
  | .finished _ result => result.success
  | _ => false

/-- The agent returns a failure. -/
def fails : Outcome → Bool
  | .finished _ result => !result.success
  | _ => false

/-- The attempt is left by an exception that is not caught. -/
def cancels : Outcome → Bool
  | .notCreated error | .interrupted _ error => error = .cancelledError
  | .finished _ _ => false

end Outcome

def WorkflowStep.attemptLimit (step : WorkflowStep) : Nat := (step.retryCount + 1).toNat

section Step

variable {executor : WorkflowExecutor} {behaviour : Behaviour} {step : WorkflowStep}

/-- The attempts before a number are followed by another one. -/
def Retried (behaviour : Behaviour) (step : WorkflowStep) (n : Nat) : Prop :=
  ∀ m < n, WorkflowExecutor.backoffOverflows m = false ∧
    (behaviour step.stepId m).succeeds = false ∧ (behaviour step.stepId m).cancels = false

/-- The status that the attempts before a number leave. -/
def statusAfter (behaviour : Behaviour) (step : WorkflowStep) (n : Nat) : StepStatus :=
  if ∃ m < n, (behaviour step.stepId m).fails = true then .failed else .running

theorem retried_zero : Retried behaviour step 0 := fun _ less => absurd less (Nat.not_lt_zero _)

theorem statusAfter_zero : statusAfter behaviour step 0 = .running :=
  if_neg fun ⟨_, less, _⟩ => Nat.not_lt_zero _ less

theorem Retried.succ {n : Nat} (before : Retried behaviour step n)
    (inTime : WorkflowExecutor.backoffOverflows n = false)
    (unsuccessful : (behaviour step.stepId n).succeeds = false)
    (caught : (behaviour step.stepId n).cancels = false) : Retried behaviour step (n + 1) := by
  intro m less
  rcases Nat.lt_succ_iff_lt_or_eq.mp less with earlier | rfl
  · exact before m earlier
  · exact ⟨inTime, unsuccessful, caught⟩

theorem statusAfter_succ_of_fails {n : Nat} (fails : (behaviour step.stepId n).fails = true) :
    statusAfter behaviour step (n + 1) = .failed :=
  if_pos ⟨n, Nat.lt_succ_self n, fails⟩

theorem statusAfter_succ {n : Nat} (other : (behaviour step.stepId n).fails = false) :
    statusAfter behaviour step (n + 1) = statusAfter behaviour step n := by
  have same : (∃ m < n + 1, (behaviour step.stepId m).fails = true) ↔
      ∃ m < n, (behaviour step.stepId m).fails = true := by
    constructor
    · rintro ⟨m, less, fails⟩
      rcases Nat.lt_succ_iff_lt_or_eq.mp less with earlier | rfl
      · exact ⟨m, earlier, fails⟩
      · rw [other] at fails
        cases fails
    · rintro ⟨m, less, fails⟩
      exact ⟨m, Nat.lt_succ_of_lt less, fails⟩
  unfold statusAfter
  simp only [same]

theorem statusAfter_ne {n : Nat} :
    statusAfter behaviour step n ≠ .completed ∧ statusAfter behaviour step n ≠ .skipped ∧
      statusAfter behaviour step n ≠ .pending := by
  unfold statusAfter
  split <;> decide

/-! ## The coroutine -/

/-- An attempt that leaves the step, after others that did not. -/
structure Leaves (behaviour : Behaviour) (step : WorkflowStep) (n : Nat) : Prop where
  less : n < step.attemptLimit
  retried : Retried behaviour step n

/-- The step breaks off at an attempt: before it is made, or by an exception in it. -/
structure BreaksOffAt (behaviour : Behaviour) (step : WorkflowStep) (n : Nat) : Prop
    extends Leaves behaviour step n where
  breaks : WorkflowExecutor.backoffOverflows n = true ∨
    (behaviour step.stepId n).cancels = true

/-- How a step that was not skipped can have ended. -/
inductive EndsAs (behaviour : Behaviour) (step : WorkflowStep) (run : StepRun) : Prop where
  | completed (n : Nat) (leaves : Leaves behaviour step n)
      (inTime : WorkflowExecutor.backoffOverflows n = false)
      (success : (behaviour step.stepId n).succeeds = true) (attempts : run.attempts = n + 1)
      (status : run.result.status = .completed) (control : run.control = .returned)
  | exhausted (retried : Retried behaviour step step.attemptLimit)
      (attempts : run.attempts = step.attemptLimit) (status : run.result.status = .failed)
      (control : run.control = .returned)
  | brokenOff (n : Nat) (breaksOff : BreaksOffAt behaviour step n)
      (attempts : run.attempts ≤ n + 1)
      (unsuccessful : ∀ m < run.attempts, (behaviour step.stepId m).succeeds = false)
      (status : run.result.status = statusAfter behaviour step n) (escape : Escape)
      (control : run.control = .raised escape)

/-- What holds of a step's run, given why it would be skipped. -/
inductive StepLaw (behaviour : Behaviour) (step : WorkflowStep) (skip : Option String)
    (run : StepRun) : Prop where
  | created (init : run = .init step.stepId)
  | looping (noSkip : skip = none) (n : Nat) (lastError : Option String)
      (control : run.control = .looping n lastError) (most : n ≤ step.attemptLimit)
      (retried : Retried behaviour step n) (attempts : run.attempts = n)
      (status : run.result.status = statusAfter behaviour step n)
  | awaiting (noSkip : skip = none) (n : Nat) (lastError : Option String)
      (control : run.control = .awaiting n lastError) (leaves : Leaves behaviour step n)
      (inTime : WorkflowExecutor.backoffOverflows n = false) (attempts : run.attempts = n + 1)
      (status : run.result.status = statusAfter behaviour step n)
  | skipped (error : String) (isSkip : skip = some error) (control : run.control = .returned)
      (attempts : run.attempts = 0) (status : run.result.status = .skipped)
      (isError : run.result.error = some error)
  | ended (noSkip : skip = none) (ends : EndsAs behaviour step run)

/-- An exception in an attempt is handled, or leaves the step. -/
theorem StepLaw.handle {run : StepRun} {n : Nat} {error : Raised}
    (leaves : Leaves behaviour step n)
    (inTime : WorkflowExecutor.backoffOverflows n = false)
    (outcome : (behaviour step.stepId n).cancels = decide (error = .cancelledError))
    (unsuccessful : (behaviour step.stepId n).succeeds = false)
    (noFailure : (behaviour step.stepId n).fails = false) (attempts : run.attempts = n + 1)
    (status : run.result.status = statusAfter behaviour step n)
    (control : run.control = executor.handle step n error) :
    StepLaw behaviour step none run := by
  have again (lastError : Option String) (caught : error ≠ .cancelledError)
      (isControl : run.control = .looping (n + 1) lastError) :
      StepLaw behaviour step none run := by
    refine .looping rfl (n + 1) lastError isControl leaves.less ?_ attempts ?_
    · refine leaves.retried.succ inTime unsuccessful ?_
      rw [outcome]
      exact decide_eq_false caught
    · rw [statusAfter_succ noFailure, status]
  cases error with
  | timeoutError => exact again _ (by decide) control
  | exception text => exact again _ Raised.noConfusion control
  | cancelledError =>
      refine .ended rfl (.brokenOff n ⟨leaves, .inr outcome⟩ (Nat.le_of_eq attempts)
        (fun m less => ?_) status _ control)
      rw [attempts] at less
      rcases Nat.lt_succ_iff_lt_or_eq.mp less with earlier | rfl
      · exact (leaves.retried m earlier).2.1
      · exact unsuccessful

/-- From the head of the loop: the attempts are used up, the pause overflows, or an attempt
is under way. -/
theorem StepLaw.resume_looping {results : Results} {run next : StepRun} {n : Nat}
    {lastError : Option String} (control : run.control = .looping n lastError)
    (most : n ≤ step.attemptLimit) (retried : Retried behaviour step n)
    (attempts : run.attempts = n) (status : run.result.status = statusAfter behaviour step n)
    (resumes : executor.resume behaviour results step run = some next) :
    StepLaw behaviour step none next := by
  unfold WorkflowExecutor.resume at resumes
  rw [control] at resumes
  dsimp only at resumes
  split at resumes
  · rename_i exhausted
    obtain rfl := Option.some.inj resumes
    obtain rfl := Nat.le_antisymm most exhausted
    exact .ended rfl (.exhausted retried attempts rfl rfl)
  rename_i more
  have leaves : Leaves behaviour step n := ⟨Nat.lt_of_not_le more, retried⟩
  split at resumes
  · rename_i overflows
    obtain rfl := Option.some.inj resumes
    exact .ended rfl (.brokenOff n ⟨leaves, .inl overflows⟩
      (Nat.le_succ_of_le (Nat.le_of_eq attempts))
      (fun m less => (retried m (attempts ▸ less)).2.1) status _ rfl)
  · rename_i inTime
    obtain rfl := Option.some.inj resumes
    have noOverflow := eq_false_of_ne_true inTime
    cases outcome : behaviour step.stepId n with
    | notCreated error =>
        refine .handle leaves noOverflow ?_ ?_ ?_ rfl status rfl <;> rw [outcome] <;> rfl
    | interrupted agentId error => exact .awaiting rfl n _ rfl leaves noOverflow rfl status
    | finished agentId result => exact .awaiting rfl n _ rfl leaves noOverflow rfl status

/-- From an attempt under way: it succeeds, or another one follows if any is left. -/
theorem StepLaw.resume_awaiting {results : Results} {run next : StepRun} {n : Nat}
    {lastError : Option String} (control : run.control = .awaiting n lastError)
    (leaves : Leaves behaviour step n) (inTime : WorkflowExecutor.backoffOverflows n = false)
    (attempts : run.attempts = n + 1)
    (status : run.result.status = statusAfter behaviour step n)
    (resumes : executor.resume behaviour results step run = some next) :
    StepLaw behaviour step none next := by
  unfold WorkflowExecutor.resume at resumes
  rw [control] at resumes
  obtain rfl := Option.some.inj resumes
  cases outcome : behaviour step.stepId n with
  | notCreated error =>
      refine .handle leaves inTime ?_ ?_ ?_ attempts status rfl <;> rw [outcome] <;> rfl
  | interrupted agentId error =>
      refine .handle leaves inTime ?_ ?_ ?_ attempts status rfl <;> rw [outcome] <;> rfl
  | finished agentId result =>
      cases success : result.success with
      | true =>
          refine .ended rfl (.completed n leaves inTime ?_ attempts ?_ ?_)
          · rw [outcome]
            exact success
          · exact if_pos success
          · exact if_pos success
      | false =>
          have isFailure : ¬ result.success = true := by simp [success]
          refine .looping rfl (n + 1) result.error (if_neg isFailure) leaves.less ?_ attempts ?_
          · refine leaves.retried.succ inTime ?_ ?_ <;> rw [outcome]
            · exact success
            · rfl
          · rw [statusAfter_succ_of_fails]
            · exact if_neg isFailure
            · rw [outcome]
              simp [Outcome.fails, success]

/-- A run that has returned or raised is not resumed. -/
theorem EndsAs.not_resume {results : Results} {run : StepRun}
    (ends : EndsAs behaviour step run) : executor.resume behaviour results step run = none := by
  unfold WorkflowExecutor.resume
  cases ends with
  | completed n leaves inTime success attempts status control => rw [control]
  | exhausted retried attempts status control => rw [control]
  | brokenOff n breaksOff attempts unsuccessful status escape control => rw [control]

/-- The law holds at the next point of waiting. -/
theorem StepLaw.resume {results : Results} {run next : StepRun}
    (law : StepLaw behaviour step (executor.skipError results step.dependsOn) run)
    (resumes : executor.resume behaviour results step run = some next) :
    StepLaw behaviour step (executor.skipError results step.dependsOn) next := by
  cases law with
  | created init =>
      subst init
      unfold WorkflowExecutor.resume at resumes
      dsimp only [StepRun.init] at resumes
      split at resumes
      · rename_i error isSkip
        obtain rfl := Option.some.inj resumes
        exact .skipped error isSkip rfl rfl rfl rfl
      · rename_i noSkip
        obtain rfl := Option.some.inj resumes
        exact .looping noSkip 0 none rfl (Nat.zero_le _) retried_zero rfl statusAfter_zero.symm
  | looping noSkip n lastError control most retried attempts status =>
      rw [noSkip]
      exact .resume_looping control most retried attempts status resumes
  | awaiting noSkip n lastError control leaves inTime attempts status =>
      rw [noSkip]
      exact .resume_awaiting control leaves inTime attempts status resumes
  | skipped error isSkip control attempts status isError =>
      unfold WorkflowExecutor.resume at resumes
      rw [control] at resumes
      cases resumes
  | ended noSkip ends =>
      rw [ends.not_resume] at resumes
      cases resumes

/-! ## Ends -/

/-- How many segments are left at most. -/
def remaining (step : WorkflowStep) : Control → Nat
  | .created => 2 * step.attemptLimit + 2
  | .looping attempt _ => 2 * (step.attemptLimit - attempt) + 1
  | .awaiting attempt _ => 2 * (step.attemptLimit - (attempt + 1)) + 2
  | .returned | .raised _ => 0

theorem remaining_le (control : Control) :
    remaining step control ≤ 2 * step.attemptLimit + 2 := by
  cases control <;> simp only [remaining] <;> omega

theorem remaining_handle_le (n : Nat) (error : Raised) :
    remaining step (executor.handle step n error) ≤ 2 * (step.attemptLimit - (n + 1)) + 1 := by
  cases error <;> simp only [WorkflowExecutor.handle, remaining] <;> omega

theorem remaining_resume {results : Results} {run next : StepRun}
    (resumes : executor.resume behaviour results step run = some next) :
    remaining step next.control < remaining step run.control := by
  unfold WorkflowExecutor.resume at resumes
  split at resumes
  · rename_i control
    rw [control]
    split at resumes
    · obtain rfl := Option.some.inj resumes
      exact Nat.succ_pos _
    · obtain rfl := Option.some.inj resumes
      simp only [remaining]
      omega
  · rename_i attempt lastError control
    rw [control]
    split at resumes
    · obtain rfl := Option.some.inj resumes
      exact Nat.succ_pos _
    rename_i more
    split at resumes
    · obtain rfl := Option.some.inj resumes
      exact Nat.succ_pos _
    · obtain rfl := Option.some.inj resumes
      have less : attempt < step.attemptLimit := Nat.lt_of_not_le more
      cases behaviour step.stepId attempt with
      | notCreated error =>
          refine Nat.lt_of_le_of_lt (remaining_handle_le attempt error) ?_
          simp only [remaining]
          omega
      | interrupted _ _ | finished _ _ =>
          change 2 * (step.attemptLimit - (attempt + 1)) + 2 <
            2 * (step.attemptLimit - attempt) + 1
          omega
  · rename_i attempt lastError control
    obtain rfl := Option.some.inj resumes
    rw [control]
    have handled (error : Raised) : remaining step (executor.handle step attempt error) <
        2 * (step.attemptLimit - (attempt + 1)) + 2 :=
      Nat.lt_succ_of_le (remaining_handle_le attempt error)
    cases behaviour step.stepId attempt with
    | notCreated error | interrupted _ error => exact handled error
    | finished _ result =>
        cases success : result.success <;>
          simp [WorkflowExecutor.endAttempt, remaining, success]
  · cases resumes
  · cases resumes

/-- A coroutine that cannot be resumed has ended, and one that has not can be. -/
theorem resume_eq_none_iff {results : Results} {run : StepRun} :
    executor.resume behaviour results step run = none ↔ remaining step run.control = 0 := by
  unfold WorkflowExecutor.resume
  cases run.control with
  | created =>
      dsimp only
      split <;> exact iff_of_false (Option.some_ne_none _) (Nat.succ_ne_zero _)
  | looping attempt lastError =>
      dsimp only
      split
      · exact iff_of_false (Option.some_ne_none _) (Nat.succ_ne_zero _)
      · split <;> exact iff_of_false (Option.some_ne_none _) (Nat.succ_ne_zero _)
  | awaiting attempt lastError => exact iff_of_false (Option.some_ne_none _) (Nat.succ_ne_zero _)
  | returned => exact iff_of_true rfl rfl
  | raised escape => exact iff_of_true rfl rfl

/-! ## How a step ends depends on its outcomes only -/

/-- The step breaks off. -/
def BreaksOff (behaviour : Behaviour) (step : WorkflowStep) : Prop :=
  ∃ n, BreaksOffAt behaviour step n

/-- The step breaks off, and no agent has returned a failure before. -/
def BreaksOffRunning (behaviour : Behaviour) (step : WorkflowStep) : Prop :=
  ∃ n, BreaksOffAt behaviour step n ∧ ∀ m < n, (behaviour step.stepId m).fails = false

/-- The attempts leave the step failed. -/
def EndsFailed (behaviour : Behaviour) (step : WorkflowStep) : Prop :=
  Retried behaviour step step.attemptLimit ∨
    ∃ n, BreaksOffAt behaviour step n ∧ ∃ m < n, (behaviour step.stepId m).fails = true

theorem not_succeeds_of_cancels {outcome : Outcome} (cancels : outcome.cancels = true) :
    outcome.succeeds = false := by
  cases outcome <;> first | rfl | cases cancels

theorem BreaksOffAt.not_retried {n m : Nat} (breaksOff : BreaksOffAt behaviour step n)
    (retried : Retried behaviour step m) : m ≤ n := by
  by_contra less
  obtain ⟨inTime, _, caught⟩ := retried n (Nat.lt_of_not_le less)
  rcases breaksOff.breaks with overflows | cancels
  · rw [inTime] at overflows
    cases overflows
  · rw [caught] at cancels
    cases cancels

theorem BreaksOffAt.unique {n m : Nat} (first : BreaksOffAt behaviour step n)
    (second : BreaksOffAt behaviour step m) : n = m :=
  Nat.le_antisymm (second.not_retried first.retried) (first.not_retried second.retried)

/-- A step that breaks off has no other end. -/
theorem EndsAs.of_breaksOffAt {run : StepRun} {n : Nat} (ends : EndsAs behaviour step run)
    (breaksOff : BreaksOffAt behaviour step n) :
    run.result.status = statusAfter behaviour step n ∧
      ∃ escape, run.control = .raised escape := by
  cases ends with
  | completed m leaves inTime success =>
      have less := breaksOff.not_retried leaves.retried
      rcases Nat.lt_or_eq_of_le less with before | rfl
      · have unsuccessful := (breaksOff.retried m before).2.1
        rw [success] at unsuccessful
        cases unsuccessful
      · rcases breaksOff.breaks with overflows | cancels
        · rw [inTime] at overflows
          cases overflows
        · have unsuccessful := not_succeeds_of_cancels cancels
          rw [success] at unsuccessful
          cases unsuccessful
  | exhausted retried =>
      exact absurd (breaksOff.not_retried retried) (Nat.not_le_of_lt breaksOff.less)
  | brokenOff m other attempts unsuccessful status escape control =>
      rw [breaksOff.unique other]
      exact ⟨status, escape, control⟩

theorem EndsAs.raised_iff {run : StepRun} (ends : EndsAs behaviour step run) :
    (∃ escape, run.control = .raised escape) ↔ BreaksOff behaviour step := by
  constructor
  · rintro ⟨escape, raised⟩
    cases ends with
    | completed n leaves inTime success attempts status control =>
        rw [control] at raised
        cases raised
    | exhausted retried attempts status control =>
        rw [control] at raised
        cases raised
    | brokenOff n breaksOff => exact ⟨n, breaksOff⟩
  · rintro ⟨n, breaksOff⟩
    exact (ends.of_breaksOffAt breaksOff).2

theorem statusAfter_eq_running_iff {n : Nat} :
    statusAfter behaviour step n = .running ↔
      ∀ m < n, (behaviour step.stepId m).fails = false := by
  unfold statusAfter
  split
  · rename_i failed
    obtain ⟨m, less, fails⟩ := failed
    refine iff_of_false (by decide) fun none => ?_
    rw [none m less] at fails
    cases fails
  · rename_i none
    exact iff_of_true rfl fun m less => eq_false_of_ne_true fun fails => none ⟨m, less, fails⟩

theorem EndsAs.running_iff {run : StepRun} (ends : EndsAs behaviour step run) :
    run.result.status = .running ↔ BreaksOffRunning behaviour step := by
  constructor
  · intro running
    cases ends with
    | completed n leaves inTime success attempts status control =>
        rw [status] at running
        cases running
    | exhausted retried attempts status control =>
        rw [status] at running
        cases running
    | brokenOff n breaksOff attempts unsuccessful status escape control =>
        exact ⟨n, breaksOff, statusAfter_eq_running_iff.mp (status ▸ running)⟩
  · rintro ⟨n, breaksOff, noFailure⟩
    rw [(ends.of_breaksOffAt breaksOff).1]
    exact statusAfter_eq_running_iff.mpr noFailure

theorem EndsAs.failed_iff {run : StepRun} (ends : EndsAs behaviour step run) :
    run.result.status = .failed ↔ EndsFailed behaviour step := by
  constructor
  · intro failed
    cases ends with
    | completed n leaves inTime success attempts status control =>
        rw [status] at failed
        cases failed
    | exhausted retried => exact .inl retried
    | brokenOff n breaksOff attempts unsuccessful status escape control =>
        refine .inr ⟨n, breaksOff, ?_⟩
        by_contra none
        rw [status, statusAfter, if_neg none] at failed
        cases failed
  · rintro (retried | ⟨n, breaksOff, failure⟩)
    · cases ends with
      | completed n leaves inTime success =>
          have unsuccessful := (retried n leaves.less).2.1
          rw [success] at unsuccessful
          cases unsuccessful
      | exhausted _ _ status => exact status
      | brokenOff n breaksOff =>
          exact absurd (breaksOff.not_retried retried) (Nat.not_le_of_lt breaksOff.less)
    · rw [(ends.of_breaksOffAt breaksOff).1]
      exact if_pos failure

theorem EndsAs.status {run : StepRun} (ends : EndsAs behaviour step run) :
    run.result.status = .completed ∨ run.result.status = .failed ∨
      run.result.status = .running := by
  cases ends with
  | completed n leaves inTime success attempts status => exact .inl status
  | exhausted retried attempts status => exact .inr (.inl status)
  | brokenOff n breaksOff attempts unsuccessful status =>
      rw [status]
      unfold statusAfter
      split
      · exact .inr (.inl rfl)
      · exact .inr (.inr rfl)

theorem EndsAs.attempts_le {run : StepRun} (ends : EndsAs behaviour step run) :
    run.attempts ≤ step.attemptLimit := by
  cases ends with
  | completed n leaves inTime success attempts =>
      rw [attempts]
      exact leaves.less
  | exhausted retried attempts => exact Nat.le_of_eq attempts
  | brokenOff n breaksOff attempts => exact Nat.le_trans attempts breaksOff.less

/-- The only attempt that can succeed is the last. -/
theorem EndsAs.last_of_succeeds {run : StepRun} (ends : EndsAs behaviour step run) {m : Nat}
    (made : m < run.attempts) (success : (behaviour step.stepId m).succeeds = true) :
    run.result.status = .completed ∧ run.attempts = m + 1 := by
  cases ends with
  | completed n leaves inTime last attempts status =>
      rw [attempts] at made ⊢
      rcases Nat.lt_succ_iff_lt_or_eq.mp made with earlier | rfl
      · have unsuccessful := (leaves.retried m earlier).2.1
        rw [success] at unsuccessful
        cases unsuccessful
      · exact ⟨status, rfl⟩
  | exhausted retried attempts =>
      have unsuccessful := (retried m (attempts ▸ made)).2.1
      rw [success] at unsuccessful
      cases unsuccessful
  | brokenOff n breaksOff attempts unsuccessful =>
      have none := unsuccessful m made
      rw [success] at none
      cases none

theorem EndsAs.completed_iff {run : StepRun} (ends : EndsAs behaviour step run) :
    run.result.status = .completed ↔
      ∃ m < run.attempts, (behaviour step.stepId m).succeeds = true := by
  constructor
  · intro completed
    cases ends with
    | completed n leaves inTime success attempts =>
        exact ⟨n, attempts ▸ Nat.lt_succ_self n, success⟩
    | exhausted retried attempts status =>
        rw [status] at completed
        cases completed
    | brokenOff n breaksOff attempts unsuccessful status =>
        rw [status] at completed
        exact absurd completed statusAfter_ne.1
  · rintro ⟨m, made, success⟩
    exact (ends.last_of_succeeds made success).1

end Step

end YouMi.Coordinator
