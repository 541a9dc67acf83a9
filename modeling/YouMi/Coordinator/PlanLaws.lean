import YouMi.Coordinator.Execution

/-!
# What an execution says of the steps

When a plan has been executed, each step should have succeeded, failed, or been
skipped because of a dependency.  An exception that leaves a step in a parallel layer
is dropped together with the step, which goes on as running for ever; the steps that
depend on it are attempted all the same.
-/

namespace YouMi.Coordinator

open YouMi.Library

section Execution

variable {executor : WorkflowExecutor} {behaviour : Behaviour} {results final : Results}
  {done : List String}

/-! ## Whole executions -/

/-- The layer step: a layer that returns is done. -/
theorem progress_of_layer {layer : List String} (progress : Progress executor behaviour done results)
    (isLayer : IsLayer executor done layer) {schedule : List String}
    (returns : executor.executeLayer behaviour schedule layer results = (.returned, final)) :
    Progress executor behaviour (done ++ layer) final := by
  have within := progress.within isLayer
  have apart := apart_of_isLayer isLayer
  unfold WorkflowExecutor.executeLayer at returns
  split at returns
  · rcases executeLayerParallel_eq schedule with ⟨isFinal, ended⟩ | unfinished
    · obtain rfl := (Prod.mk.inj (isFinal.symm.trans returns)).2
      refine progress.after isLayer (within.interleave apart fun stepId scheduled => ?_) ended
      simpa using (List.mem_filter.mp scheduled).2
    · rw [returns] at unfinished
      cases unfinished
  · rcases progress.executeLayerSerial isLayer with
      ⟨last, isFinal, _, inLayer, ended⟩ | ⟨_, _, _, _, raised, _⟩
    · obtain rfl := (Prod.mk.inj (isFinal.symm.trans returns)).2
      exact progress.after isLayer inLayer fun stepId member => (ended stepId member).1
    · exact nomatch (Prod.mk.inj (raised.symm.trans returns)).1

theorem executeLayers_of_returned {schedule : List String → List String} {layer : List String}
    (returns : executor.executeLayer behaviour (schedule layer) layer results = (.returned, final))
    (rest : List (List String)) :
    executor.executeLayers behaviour schedule (layer :: rest) results =
      executor.executeLayers behaviour schedule rest final := by
  conv_lhs => unfold WorkflowExecutor.executeLayers
  rw [returns]

/-- A layer that does not return ends the execution. -/
theorem executeLayers_of_ne_returned {schedule : List String → List String} {layer : List String}
    {ending : WorkflowExecutor.Ending}
    (ends : executor.executeLayer behaviour (schedule layer) layer results = (ending, final))
    (stops : ending ≠ .returned) (rest : List (List String)) :
    executor.executeLayers behaviour schedule (layer :: rest) results = (ending, final) := by
  conv_lhs => unfold WorkflowExecutor.executeLayers
  rw [ends]
  cases ending with
  | returned => exact absurd rfl stops
  | raised escape => rfl
  | unfinished => rfl

/-- The run lemma: when all layers have returned, all of their steps are done. -/
theorem progress_of_layers {schedule : List String → List String} {layers : List (List String)}
    (layered : Layers.Layered executor.plan.stepIds executor.plan.dependencies done layers)
    (progress : Progress executor behaviour done results)
    (returns : executor.executeLayers behaviour schedule layers results = (.returned, final)) :
    Progress executor behaviour (done ++ layers.flatten) final := by
  induction layered generalizing results with
  | nil done =>
      obtain rfl := (Prod.mk.inj returns).2
      rwa [List.flatten_nil, List.append_nil]
  | @cons done layer rest isLayer later ih =>
      rcases isRun : executor.executeLayer behaviour (schedule layer) layer results
        with ⟨ending, middle⟩
      by_cases stops : ending = .returned
      · subst stops
        rw [executeLayers_of_returned isRun] at returns
        rw [List.flatten_cons, ← List.append_assoc]
        exact ih (progress_of_layer progress isLayer isRun) returns
      · rw [executeLayers_of_ne_returned isRun stops] at returns
        exact absurd (Prod.mk.inj returns).1 stops

theorem execute_eq (valid : executor.plan.validate = []) (schedule : List String → List String) :
    executor.execute behaviour schedule =
      .ok (executor.executeLayers behaviour schedule executor.plan.getExecutionOrder
        executor.initialResults) := by
  unfold WorkflowExecutor.execute
  dsimp only
  rw [if_neg (not_not.mpr valid)]

/-! ## Ended steps -/

/-- A step that has ended was skipped, or has ended by its attempts. -/
theorem ended_cases {step : WorkflowStep} {skip : Option String} {run : StepRun}
    (law : StepLaw behaviour step skip run) (none : remaining step run.control = 0) :
    (∃ error, skip = some error ∧ run.attempts = 0 ∧ run.result.status = .skipped ∧
      run.control = .returned) ∨ skip = .none ∧ EndsAs behaviour step run := by
  cases law with
  | created init =>
      rw [init] at none
      cases none
  | looping noSkip n lastError control =>
      rw [control] at none
      cases none
  | awaiting noSkip n lastError control =>
      rw [control] at none
      cases none
  | skipped error isSkip control attempts status =>
      exact .inl ⟨error, isSkip, attempts, status, control⟩
  | ended noSkip ends => exact .inr ⟨noSkip, ends⟩

/-- The status of a step. -/
def HasStatus (results : Results) (stepId : String) (status : StepStatus) : Prop :=
  ∃ run, results stepId = some run ∧ run.result.status = status

instance (results : Results) (stepId : String) (status : StepStatus) :
    Decidable (HasStatus results stepId status) :=
  match isRun : results stepId with
  | none => isFalse fun ⟨_, isSome, _⟩ => Option.some_ne_none _ (isSome.symm.trans isRun)
  | some run =>
      decidable_of_iff (run.result.status = status)
        ⟨fun same => ⟨run, isRun, same⟩, fun ⟨_, isSome, same⟩ =>
          Option.some.inj (isRun.symm.trans isSome) ▸ same⟩

/-- The step is failed or skipped. -/
def Failing (results : Results) (stepId : String) : Prop :=
  HasStatus results stepId .failed ∨ HasStatus results stepId .skipped

instance (results : Results) (stepId : String) : Decidable (Failing results stepId) :=
  inferInstanceAs (Decidable (_ ∨ _))

/-- A step is skipped for a dependency that is failed or skipped. -/
theorem skipError_eq_none_iff {deps : List String}
    (present : ∀ dep ∈ deps, ∃ run, results dep = some run) :
    executor.skipError results deps = none ↔
      (executor.failFast = true → ∀ dep ∈ deps, ¬ Failing results dep) := by
  induction deps with
  | nil => exact iff_of_true rfl fun _ _ member => nomatch member
  | cons dep rest ih =>
      obtain ⟨⟨run, isRun⟩, present⟩ := List.forall_mem_cons.mp present
      have failing : Failing results dep ↔
          run.result.status = .failed ∨ run.result.status = .skipped := by
        unfold Failing HasStatus
        rw [isRun]
        simp
      unfold WorkflowExecutor.skipError
      rw [isRun]
      dsimp only
      by_cases skips : (run.result.status = .failed ∨ run.result.status = .skipped) ∧
          executor.failFast = true
      · rw [if_pos skips]
        refine iff_of_false (Option.some_ne_none _) fun none => ?_
        exact none skips.2 dep List.mem_cons_self (failing.mpr skips.1)
      · rw [if_neg skips, ih present]
        refine imp_congr_right fun failFast => ?_
        rw [List.forall_mem_cons, failing]
        exact (and_iff_right fun bad => skips ⟨bad, failFast⟩).symm

/-! ## What fails depends on the outcomes only -/

/-- The attempts of a step fail, or it depends on such a step. -/
inductive Unmet (plan : WorkflowPlan) (behaviour : Behaviour) : String → Prop where
  | failed {step : WorkflowStep} (member : step ∈ plan.steps)
      (fails : EndsFailed behaviour step) : Unmet plan behaviour step.stepId
  | dependency {step : WorkflowStep} {dep : String} (member : step ∈ plan.steps)
      (isDep : dep ∈ step.dependsOn) (unmet : Unmet plan behaviour dep) :
      Unmet plan behaviour step.stepId

/-- No dependency of the step makes it skipped. -/
def Reached (executor : WorkflowExecutor) (behaviour : Behaviour) (step : WorkflowStep) : Prop :=
  executor.failFast = true → ∀ dep ∈ step.dependsOn, ¬ Unmet executor.plan behaviour dep

/-- A step that is done, with what is known of its run. -/
theorem Progress.run (progress : Progress executor behaviour done results) {step : WorkflowStep}
    (isStep : executor.plan.getStep step.stepId = some step) (isDone : step.stepId ∈ done) :
    ∃ run, results step.stepId = some run ∧
      ((executor.skipError results step.dependsOn ≠ none ∧ run.attempts = 0 ∧
        run.result.status = .skipped ∧ run.control = .returned) ∨
      executor.skipError results step.dependsOn = none ∧ EndsAs behaviour step run) := by
  obtain ⟨step', run, ⟨isStep', isRun, law⟩, none⟩ := progress.ended step.stepId isDone
  obtain rfl := Option.some.inj (isStep.symm.trans isStep')
  refine ⟨run, isRun, ?_⟩
  rcases ended_cases law none with ⟨error, skip, rest⟩ | ends
  · exact .inl ⟨by simp [skip], rest⟩
  · exact .inr ends

theorem Progress.skipError_eq_none_iff (progress : Progress executor behaviour done results)
    {step : WorkflowStep} (ready : ∀ dep ∈ step.dependsOn, dep ∈ done) :
    executor.skipError results step.dependsOn = none ↔
      (executor.failFast = true → ∀ dep ∈ step.dependsOn, ¬ Failing results dep) := by
  refine YouMi.Coordinator.skipError_eq_none_iff fun dep isDep => ?_
  obtain ⟨_, run, coroutine, _⟩ := progress.ended dep (ready dep isDep)
  exact ⟨run, coroutine.isRun⟩

theorem Progress.ready (progress : Progress executor behaviour done results) {step : WorkflowStep}
    (isStep : executor.plan.getStep step.stepId = some step) (isDone : step.stepId ∈ done) :
    ∀ dep ∈ step.dependsOn, dep ∈ done := by
  intro dep isDep
  rw [← WorkflowPlan.dependencies_of_getStep isStep] at isDep
  exact progress.closed step.stepId isDone dep isDep

/-- A step that fails or is skipped is one whose attempts fail, or that depends on such a one. -/
theorem Progress.unmet_of_failing (valid : executor.plan.Valid)
    (progress : Progress executor behaviour done results) {stepId : String}
    (known : stepId ∈ executor.plan.stepIds) (isDone : stepId ∈ done)
    (failing : Failing results stepId) : Unmet executor.plan behaviour stepId := by
  have grounded := valid.grounded stepId known
  induction grounded with
  | intro stepId _ ih =>
      obtain ⟨step, isStep⟩ := WorkflowPlan.exists_getStep known
      obtain ⟨member, rfl⟩ := WorkflowPlan.getStep_spec isStep
      have ready := progress.ready isStep isDone
      obtain ⟨run, isRun, ⟨skip, _⟩ | ⟨_, ends⟩⟩ := progress.run isStep isDone
      · have notAll := mt (progress.skipError_eq_none_iff ready).mpr skip
        simp only [not_forall, not_not] at notAll
        obtain ⟨_, dep, isDep, bad⟩ := notAll
        have isDependency : dep ∈ executor.plan.dependencies step.stepId := by
          rwa [WorkflowPlan.dependencies_of_getStep isStep]
        refine .dependency member isDep (ih dep isDependency ?_ (ready dep isDep) bad)
        exact valid.known step member dep isDep
      · refine .failed member (ends.failed_iff.mp ?_)
        rcases failing with ⟨run', isRun', failed⟩ | ⟨run', isRun', skipped⟩
        · rwa [Option.some.inj (isRun.symm.trans isRun')]
        · rw [← Option.some.inj (isRun.symm.trans isRun')] at skipped
          rcases ends.status with other | other | other <;>
            exact StepStatus.noConfusion (other.symm.trans skipped)

theorem Progress.failing_of_unmet (valid : executor.plan.Valid) (failFast : executor.failFast = true)
    (progress : Progress executor behaviour done results) {stepId : String}
    (isDone : stepId ∈ done) (unmet : Unmet executor.plan behaviour stepId) :
    Failing results stepId := by
  induction unmet with
  | failed member fails =>
      have isStep := WorkflowPlan.getStep_of_mem valid.nodup member
      obtain ⟨run, isRun, ⟨_, _, skipped, _⟩ | ⟨_, ends⟩⟩ := progress.run isStep isDone
      · exact .inr ⟨run, isRun, skipped⟩
      · exact .inl ⟨run, isRun, ends.failed_iff.mpr fails⟩
  | dependency member isDep _ ih =>
      have isStep := WorkflowPlan.getStep_of_mem valid.nodup member
      have ready := progress.ready isStep isDone
      obtain ⟨run, isRun, ⟨_, _, skipped, _⟩ | ⟨noSkip, _⟩⟩ := progress.run isStep isDone
      · exact .inr ⟨run, isRun, skipped⟩
      · have fine := (progress.skipError_eq_none_iff ready).mp noSkip failFast
        exact absurd (ih (ready _ isDep)) (fine _ isDep)

/-- A step is skipped exactly if it is not reached. -/
theorem Progress.skipError_eq_none_iff_reached (valid : executor.plan.Valid)
    (progress : Progress executor behaviour done results) {step : WorkflowStep}
    (member : step ∈ executor.plan.steps) (ready : ∀ dep ∈ step.dependsOn, dep ∈ done) :
    executor.skipError results step.dependsOn = none ↔ Reached executor behaviour step := by
  rw [progress.skipError_eq_none_iff ready]
  refine forall_congr' fun failFast => forall_congr' fun dep => forall_congr' fun isDep => ?_
  have known := valid.known step member dep isDep
  exact not_congr ⟨progress.unmet_of_failing valid known (ready dep isDep),
    progress.failing_of_unmet valid failFast (ready dep isDep)⟩

/-! ## The law of an execution -/

/-- What is claimed of the results of a finished execution. -/
structure Lawful (executor : WorkflowExecutor) (behaviour : Behaviour) (results : Results) :
    Prop where
  ends : executor.failFast = true → ∀ step ∈ executor.plan.steps,
    HasStatus results step.stepId .completed ∨ Failing results step.stepId
  attempted : executor.failFast = true → ∀ step ∈ executor.plan.steps, ∀ run,
    results step.stepId = some run → 0 < run.attempts →
      ∀ dep ∈ step.dependsOn, HasStatus results dep .completed
  skipped : executor.failFast = true → ∀ step ∈ executor.plan.steps,
    (HasStatus results step.stepId .skipped ↔ ∃ dep ∈ step.dependsOn, Failing results dep)
  completed : ∀ step ∈ executor.plan.steps, ∀ run, results step.stepId = some run →
    run.result.status ≠ .skipped →
      (run.result.status = .completed ↔
        ∃ m < run.attempts, (behaviour step.stepId m).succeeds = true)
  attempts : ∀ step ∈ executor.plan.steps, ∀ run, results step.stepId = some run →
    run.attempts ≤ step.attemptLimit ∧
      ∀ m < run.attempts, (behaviour step.stepId m).succeeds = true → run.attempts = m + 1
  noSkips : executor.failFast = false → ∀ step ∈ executor.plan.steps,
    ¬ HasStatus results step.stepId .skipped

/-- No step that is reached breaks off before one of its agents has returned a failure. -/
def Unbroken (executor : WorkflowExecutor) (behaviour : Behaviour) : Prop :=
  executor.failFast = true → ∀ step ∈ executor.plan.steps, Reached executor behaviour step →
    ¬ BreaksOffRunning behaviour step

theorem hasStatus_iff {stepId : String} {run : StepRun} (isRun : results stepId = some run)
    {status : StepStatus} : HasStatus results stepId status ↔ run.result.status = status :=
  ⟨fun ⟨_, isSome, same⟩ => Option.some.inj (isRun.symm.trans isSome) ▸ same,
    fun same => ⟨run, isRun, same⟩⟩

theorem progress_of_execute (valid : executor.plan.validate = [])
    {schedule : List String → List String}
    (finished : executor.execute behaviour schedule = .ok (.returned, results)) :
    Progress executor behaviour executor.plan.getExecutionOrder.flatten results := by
  rw [execute_eq valid] at finished
  exact progress_of_layers (WorkflowPlan.valid_of_validate valid).layered progress_initial
    (Except.ok.inj finished)

/-- What is known of each step when an execution has finished. -/
theorem Progress.whole (valid : executor.plan.Valid)
    (progress : Progress executor behaviour executor.plan.getExecutionOrder.flatten results)
    {step : WorkflowStep} (member : step ∈ executor.plan.steps) :
    ∃ run, results step.stepId = some run ∧
      ((¬ Reached executor behaviour step ∧ run.attempts = 0 ∧ run.result.status = .skipped) ∨
        Reached executor behaviour step ∧ EndsAs behaviour step run) := by
  have isStep := WorkflowPlan.getStep_of_mem valid.nodup member
  have isDone := valid.mem_getExecutionOrder step.stepId (List.mem_map_of_mem member)
  have reached := progress.skipError_eq_none_iff_reached valid member
    (progress.ready isStep isDone)
  obtain ⟨run, isRun, ⟨skip, attempts, status, _⟩ | ⟨noSkip, ends⟩⟩ := progress.run isStep isDone
  · exact ⟨run, isRun, .inl ⟨mt reached.mpr skip, attempts, status⟩⟩
  · exact ⟨run, isRun, .inr ⟨reached.mp noSkip, ends⟩⟩

theorem Progress.reached_iff (valid : executor.plan.Valid)
    (progress : Progress executor behaviour executor.plan.getExecutionOrder.flatten results)
    {step : WorkflowStep} (member : step ∈ executor.plan.steps) :
    Reached executor behaviour step ↔
      (executor.failFast = true → ∀ dep ∈ step.dependsOn, ¬ Failing results dep) := by
  have isStep := WorkflowPlan.getStep_of_mem valid.nodup member
  have isDone := valid.mem_getExecutionOrder step.stepId (List.mem_map_of_mem member)
  have ready := progress.ready isStep isDone
  rw [← progress.skipError_eq_none_iff_reached valid member ready,
    progress.skipError_eq_none_iff ready]

/--
A finished execution obeys the law exactly if no step that is reached breaks off while
it is running, with no failure returned by any of its agents.
-/
theorem lawful_iff_unbroken (valid : executor.plan.validate = [])
    {schedule : List String → List String}
    (finished : executor.execute behaviour schedule = .ok (.returned, results)) :
    Lawful executor behaviour results ↔ Unbroken executor behaviour := by
  have progress := progress_of_execute valid finished
  have isValid := WorkflowPlan.valid_of_validate valid
  constructor
  · intro law failFast step member reached breaksOff
    obtain ⟨run, isRun, ⟨notReached, _⟩ | ⟨_, ends⟩⟩ := progress.whole isValid member
    · exact notReached reached
    · have running := ends.running_iff.mpr breaksOff
      have ended := law.ends failFast step member
      unfold Failing at ended
      rw [hasStatus_iff isRun, hasStatus_iff isRun, hasStatus_iff isRun, running] at ended
      rcases ended with other | other | other <;> cases other
  · intro unbroken
    have ends (failFast : executor.failFast = true) (step : WorkflowStep)
        (member : step ∈ executor.plan.steps) :
        HasStatus results step.stepId .completed ∨ Failing results step.stepId := by
      unfold Failing
      obtain ⟨run, isRun, ⟨_, _, skipped⟩ | ⟨reached, ends⟩⟩ := progress.whole isValid member
      · exact .inr (.inr ⟨run, isRun, skipped⟩)
      · rcases ends.status with completed | failed | running
        · exact .inl ⟨run, isRun, completed⟩
        · exact .inr (.inl ⟨run, isRun, failed⟩)
        · exact absurd (ends.running_iff.mp running) (unbroken failFast step member reached)
    refine ⟨ends, fun failFast step member run isRun made dep isDep => ?_,
      fun failFast step member => ?_, fun step member run isRun notSkipped => ?_,
      fun step member run isRun => ?_, fun slow step member skipped => ?_⟩
    · obtain ⟨run', isRun', ⟨_, none, _⟩ | ⟨reached, _⟩⟩ := progress.whole isValid member
      · rw [Option.some.inj (isRun.symm.trans isRun'), none] at made
        cases made
      · obtain ⟨step', isStep', rfl⟩ := List.mem_map.mp (isValid.known step member dep isDep)
        have fine := (progress.reached_iff isValid member).mp reached failFast step'.stepId isDep
        exact (ends failFast step' isStep').resolve_right fine
    · obtain ⟨run, isRun, other⟩ := progress.whole isValid member
      have reached := progress.reached_iff isValid member
      rw [hasStatus_iff isRun]
      rcases other with ⟨notReached, _, skipped⟩ | ⟨isReached, ends⟩
      · refine iff_of_true skipped ?_
        by_contra none
        exact notReached (reached.mpr fun _ dep isDep bad => none ⟨dep, isDep, bad⟩)
      · refine iff_of_false (fun skipped => ?_) ?_
        · rcases ends.status with other | other | other <;>
            exact StepStatus.noConfusion (other.symm.trans skipped)
        · rintro ⟨dep, isDep, bad⟩
          exact reached.mp isReached failFast dep isDep bad
    · obtain ⟨run', isRun', ⟨_, _, skipped⟩ | ⟨_, ends⟩⟩ := progress.whole isValid member
      · rw [Option.some.inj (isRun.symm.trans isRun')] at notSkipped
        exact absurd skipped notSkipped
      · rw [Option.some.inj (isRun.symm.trans isRun')]
        exact ends.completed_iff
    · obtain ⟨run', isRun', ⟨_, none, _⟩ | ⟨_, ends⟩⟩ := progress.whole isValid member
      · rw [Option.some.inj (isRun.symm.trans isRun'), none]
        exact ⟨Nat.zero_le _, fun m less => absurd less (Nat.not_lt_zero m)⟩
      · rw [Option.some.inj (isRun.symm.trans isRun')]
        exact ⟨ends.attempts_le, fun m made success => (ends.last_of_succeeds made success).2⟩
    · obtain ⟨run, isRun, ⟨notReached, _⟩ | ⟨_, ends⟩⟩ := progress.whole isValid member
      · refine notReached fun failFast => ?_
        rw [slow] at failFast
        cases failFast
      · rw [hasStatus_iff isRun] at skipped
        rcases ends.status with other | other | other <;>
          exact StepStatus.noConfusion (other.symm.trans skipped)

end Execution

/-- Two steps side by side, and one that depends on the first. -/
def forkedPlan : WorkflowPlan :=
  ⟨[⟨"first", [], 0, none⟩, ⟨"other", [], 0, none⟩, ⟨"last", ["first"], 0, none⟩]⟩

def forkedExecutor : WorkflowExecutor := ⟨forkedPlan, true, true, "300.0"⟩

/-- The steps of a layer take turns. -/
def inTurns (layer : List String) : List String := (List.replicate 4 layer).flatten

/-- The agent of the first step reports a failure. -/
def failingFirst : Behaviour := fun stepId _ => .finished "agent" ⟨stepId ≠ "first", "", none⟩

def failedResults : Results :=
  (forkedExecutor.executeLayers failingFirst inTurns [["first", "other"], ["last"]]
    forkedExecutor.initialResults).2

theorem not_breaks_failingFirst {step : WorkflowStep} (member : step ∈ forkedPlan.steps) {n : Nat}
    (less : n < step.attemptLimit) : ¬ (WorkflowExecutor.backoffOverflows n = true ∨
      (failingFirst step.stepId n).cancels = true) := by
  have once : ∀ step ∈ forkedPlan.steps, step.attemptLimit = 1 := by decide
  rw [once step member] at less
  rintro (overflows | cancels)
  · have late : 1025 ≤ n := of_decide_eq_true overflows
    omega
  · cases cancels

/-- With a step that fails, one that succeeds, and one that is skipped. -/
theorem lawful_iff_unbroken_failed : Lawful forkedExecutor failingFirst failedResults := by
  have finished : forkedExecutor.execute failingFirst inTurns = .ok (.returned, failedResults) :=
    rfl
  refine (lawful_iff_unbroken (by decide) finished).mpr ?_
  rintro _ step member _ ⟨n, ⟨⟨less, _⟩, breaks⟩, _⟩
  exact not_breaks_failingFirst member less breaks

/-- The run of the first step's agent is cancelled; all others succeed. -/
def cancelledFirst : Behaviour := fun stepId _ =>
  if stepId = "first" then .interrupted "agent" .cancelledError
  else .finished "agent" ⟨true, "", none⟩

theorem not_lawful_cancelled : ∃ results,
    forkedExecutor.execute cancelledFirst inTurns = .ok (.returned, results) ∧
      ¬ Lawful forkedExecutor cancelledFirst results := by
  refine ⟨_, rfl, fun law => ?_⟩
  have ends := law.ends rfl ⟨"first", [], 0, none⟩ List.mem_cons_self
  exact absurd ends (by decide)

end YouMi.Coordinator
