import YouMi.Coordinator.StepLaws

/-!
# Executing the layers of a plan

A step reads its own cell and the results of its dependencies, which are in earlier
layers and have ended.  So what a layer does to each of its steps does not depend on
how they interleave, and is told by the dependencies and the outcomes of its attempts.
-/

namespace YouMi.Coordinator

open YouMi.Library

/-! ## Valid plans -/

section Plan

variable {plan : WorkflowPlan}

theorem WorkflowPlan.getStep_of_mem (nodup : plan.stepIds.Nodup) {step : WorkflowStep}
    (member : step ∈ plan.steps) : plan.getStep step.stepId = some step := by
  unfold WorkflowPlan.stepIds at nodup
  unfold WorkflowPlan.getStep
  refine List.find?_eq_some_iff_append.mpr ⟨by simp, ?_⟩
  obtain ⟨before, after, split⟩ := List.append_of_mem member
  refine ⟨before, after, split, fun other earlier => ?_⟩
  rw [split, List.map_append, List.map_cons] at nodup
  have apart := (List.nodup_append.mp nodup).2.2 other.stepId (List.mem_map_of_mem earlier)
    step.stepId List.mem_cons_self
  simpa using apart

theorem WorkflowPlan.getStep_spec {stepId : String} {step : WorkflowStep}
    (isStep : plan.getStep stepId = some step) : step ∈ plan.steps ∧ step.stepId = stepId :=
  ⟨List.mem_of_find?_eq_some isStep, by simpa using List.find?_some isStep⟩

theorem WorkflowPlan.exists_getStep {stepId : String} (known : stepId ∈ plan.stepIds) :
    ∃ step, plan.getStep stepId = some step := by
  obtain ⟨step, member, rfl⟩ := List.mem_map.mp known
  refine Option.isSome_iff_exists.mp (List.find?_isSome.mpr ⟨step, member, by simp⟩)

theorem WorkflowPlan.dependencies_of_getStep {stepId : String} {step : WorkflowStep}
    (isStep : plan.getStep stepId = some step) : plan.dependencies stepId = step.dependsOn := by
  unfold WorkflowPlan.dependencies
  rw [isStep]
  rfl

/-- What a plan without errors is. -/
structure WorkflowPlan.Valid (plan : WorkflowPlan) : Prop where
  nodup : plan.stepIds.Nodup
  known : ∀ step ∈ plan.steps, ∀ dep ∈ step.dependsOn, dep ∈ plan.stepIds
  noCycle : plan.detectCycle = none

theorem WorkflowPlan.valid_of_validate (noErrors : plan.validate = []) : plan.Valid := by
  unfold WorkflowPlan.validate at noErrors
  dsimp only at noErrors
  have none : (if plan.stepIds.Nodup then [] else ["存在重复的 step_id"]) ++
      plan.steps.flatMap plan.stepErrors = [] := by
    by_contra errors
    rw [if_neg errors] at noErrors
    exact errors noErrors
  rw [if_pos none] at noErrors
  obtain ⟨noDuplicates, steps⟩ := List.append_eq_nil_iff.mp none
  refine ⟨?_, fun step member dep isDep => ?_, ?_⟩
  · by_contra duplicate
    rw [if_neg duplicate] at noDuplicates
    cases noDuplicates
  · have missing := (List.append_eq_nil_iff.mp (List.flatMap_eq_nil_iff.mp steps step member)).1
    have noMissing := List.filter_eq_nil_iff.mp (List.map_eq_nil_iff.mp missing) dep isDep
    simpa using noMissing
  · split at noErrors
    · assumption
    · cases noErrors

namespace WorkflowPlan.Valid

variable (valid : plan.Valid)

include valid

theorem closed : ∀ stepId ∈ plan.stepIds, ∀ dep ∈ plan.dependencies stepId,
    dep ∈ plan.stepIds := by
  intro stepId known dep isDep
  obtain ⟨step, isStep⟩ := WorkflowPlan.exists_getStep known
  rw [WorkflowPlan.dependencies_of_getStep isStep] at isDep
  exact valid.known step (WorkflowPlan.getStep_spec isStep).1 dep isDep

/-- The dependencies of a step end in steps without dependencies. -/
theorem grounded : ∀ stepId ∈ plan.stepIds, DepthFirst.Grounded plan.dependencies stepId :=
  DepthFirst.grounded_of_findCycle valid.closed valid.noCycle

theorem layered : Layers.Layered plan.stepIds plan.dependencies [] plan.getExecutionOrder :=
  (Layers.layered_layers valid.nodup valid.closed).1

theorem mem_getExecutionOrder : ∀ stepId ∈ plan.stepIds,
    stepId ∈ plan.getExecutionOrder.flatten := fun stepId known =>
  (Layers.layered_layers valid.nodup valid.closed).2 stepId known (valid.grounded stepId known)

end WorkflowPlan.Valid

end Plan

/-! ## Coroutines of a layer -/

section Layer

variable {executor : WorkflowExecutor} {behaviour : Behaviour}

theorem skipError_congr {results results' : Results} {deps : List String}
    (same : ∀ dep ∈ deps, results dep = results' dep) :
    executor.skipError results deps = executor.skipError results' deps := by
  induction deps with
  | nil => rfl
  | cons dep rest ih =>
      obtain ⟨first, others⟩ := List.forall_mem_cons.mp same
      unfold WorkflowExecutor.skipError
      rw [first, ih others]

theorem resume_congr {results results' : Results} {step : WorkflowStep}
    (deps : executor.skipError results step.dependsOn =
      executor.skipError results' step.dependsOn) {run : StepRun} :
    executor.resume behaviour results step run = executor.resume behaviour results' step run := by
  unfold WorkflowExecutor.resume
  rw [deps]

theorem executeStep_eq {stepId : String} {results : Results} {step : WorkflowStep} {run : StepRun}
    (isStep : executor.plan.getStep stepId = some step) (isRun : results stepId = some run) :
    executor.executeStep behaviour stepId results =
      (executor.resume behaviour results step run).map some := by
  unfold WorkflowExecutor.executeStep
  rw [isStep, isRun]
  rfl

/-- Where the coroutine of a step is, and what holds of it given the results at the start. -/
structure Coroutine (executor : WorkflowExecutor) (behaviour : Behaviour) (start results : Results)
    (stepId : String) (step : WorkflowStep) (run : StepRun) : Prop where
  isStep : executor.plan.getStep stepId = some step
  isRun : results stepId = some run
  law : StepLaw behaviour step (executor.skipError start step.dependsOn) run

theorem Coroutine.ended_iff {start results : Results} {stepId : String} {step : WorkflowStep}
    {run : StepRun} (coroutine : Coroutine executor behaviour start results stepId step run) :
    Interleaving.Ended (executor.executeStep behaviour) results stepId ↔
      remaining step run.control = 0 := by
  unfold Interleaving.Ended
  rw [executeStep_eq coroutine.isStep coroutine.isRun, Option.map_eq_none_iff,
    resume_eq_none_iff]

/-- Within a layer: other results are as they were, and each step obeys its law. -/
structure Within (executor : WorkflowExecutor) (behaviour : Behaviour) (start : Results)
    (layer : List String) (results : Results) : Prop where
  outside : ∀ stepId, stepId ∉ layer → results stepId = start stepId
  inside : ∀ stepId ∈ layer, ∃ step run,
    Coroutine executor behaviour start results stepId step run

/-- The steps of a layer do not depend on each other. -/
def Apart (executor : WorkflowExecutor) (layer : List String) : Prop :=
  ∀ stepId ∈ layer, ∀ dep ∈ executor.plan.dependencies stepId, dep ∉ layer

variable {start results : Results} {layer : List String}

theorem Apart.independent (apart : Apart executor layer) :
    Interleaving.Independent (executor.executeStep behaviour) layer := by
  intro stepId member results results' own outside
  unfold WorkflowExecutor.executeStep
  cases isStep : executor.plan.getStep stepId with
  | none => rfl
  | some step =>
      have deps : executor.skipError results step.dependsOn =
          executor.skipError results' step.dependsOn := by
        refine skipError_congr fun dep isDep => outside dep (apart stepId member dep ?_)
        rwa [WorkflowPlan.dependencies_of_getStep isStep]
      rw [own, Option.bind_some, Option.bind_some]
      exact congrArg _ (funext fun run => by rw [resume_congr deps])

theorem Within.segment (apart : Apart executor layer)
    (within : Within executor behaviour start layer results) {stepId : String}
    (member : stepId ∈ layer) :
    Within executor behaviour start layer
      (Interleaving.segment (executor.executeStep behaviour) results stepId) := by
  obtain ⟨step, run, isStep, isRun, law⟩ := within.inside stepId member
  have deps : executor.skipError results step.dependsOn =
      executor.skipError start step.dependsOn := by
    refine skipError_congr fun dep isDep => within.outside dep (apart stepId member dep ?_)
    rwa [WorkflowPlan.dependencies_of_getStep isStep]
  cases resumes : executor.resume behaviour results step run with
  | none =>
      have ended : Interleaving.Ended (executor.executeStep behaviour) results stepId := by
        unfold Interleaving.Ended
        rw [executeStep_eq isStep isRun, resumes]
        rfl
      rwa [Interleaving.segment_of_ended ended]
  | some next =>
      have advances : executor.executeStep behaviour stepId results = some (some next) := by
        rw [executeStep_eq isStep isRun, resumes]
        rfl
      rw [Interleaving.segment_of_some advances]
      refine ⟨fun other absent => ?_, fun other isOther => ?_⟩
      · have apart : other ≠ stepId := by
          rintro rfl
          exact absent member
        rw [Function.update_of_ne apart]
        exact within.outside other absent
      · by_cases same : other = stepId
        · subst same
          refine ⟨step, next, isStep, Function.update_self _ _ _, ?_⟩
          rw [← deps] at law ⊢
          exact law.resume resumes
        · obtain ⟨step', run', isStep', isRun', law'⟩ := within.inside other isOther
          exact ⟨step', run', isStep', by rw [Function.update_of_ne same, isRun'], law'⟩

theorem Within.interleave (apart : Apart executor layer)
    (within : Within executor behaviour start layer results) {schedule : List String}
    (inside : ∀ stepId ∈ schedule, stepId ∈ layer) :
    Within executor behaviour start layer
      (Interleaving.interleave (executor.executeStep behaviour) results schedule) := by
  induction schedule generalizing results with
  | nil => exact within
  | cons stepId rest ih =>
      obtain ⟨member, later⟩ := List.forall_mem_cons.mp inside
      exact ih (within.segment apart member) later

/-! ## Steps run to their ends -/

theorem Coroutine.remaining_of_segment {stepId : String} {step : WorkflowStep} {run : StepRun}
    (coroutine : Coroutine executor behaviour start results stepId step run)
    (going : remaining step run.control ≠ 0) :
    ∃ next, Interleaving.segment (executor.executeStep behaviour) results stepId stepId =
      some next ∧ remaining step next.control < remaining step run.control := by
  cases resumes : executor.resume behaviour results step run with
  | none => exact absurd (resume_eq_none_iff.mp resumes) going
  | some next =>
      have advances : executor.executeStep behaviour stepId results = some (some next) := by
        rw [executeStep_eq coroutine.isStep coroutine.isRun, resumes]
        rfl
      rw [Interleaving.segment_of_some advances]
      exact ⟨next, Function.update_self _ _ _, remaining_resume resumes⟩

/-- As many segments as are left end a step. -/
theorem Within.ended_of_remaining_le (apart : Apart executor layer)
    (within : Within executor behaviour start layer results) {stepId : String}
    (member : stepId ∈ layer) {step : WorkflowStep} {run : StepRun} {n : Nat}
    (coroutine : Coroutine executor behaviour start results stepId step run)
    (enough : remaining step run.control ≤ n) :
    Interleaving.Ended (executor.executeStep behaviour)
      (Interleaving.interleave (executor.executeStep behaviour) results
        (List.replicate n stepId)) stepId := by
  induction n generalizing results run with
  | zero => exact coroutine.ended_iff.mpr (Nat.le_zero.mp enough)
  | succ n ih =>
      by_cases ended : remaining step run.control = 0
      · rw [Interleaving.interleave_of_ended (coroutine.ended_iff.mpr ended)]
        exact coroutine.ended_iff.mpr ended
      · obtain ⟨next, isNext, less⟩ := coroutine.remaining_of_segment ended
        have within' := within.segment apart member
        obtain ⟨step', run', isStep', isRun', law'⟩ := within'.inside stepId member
        obtain rfl := Option.some.inj (coroutine.isStep.symm.trans isStep')
        obtain rfl := Option.some.inj (isNext.symm.trans isRun')
        exact ih within' ⟨isStep', isRun', law'⟩ (by omega)

theorem segments_eq {stepId : String} {step : WorkflowStep}
    (isStep : executor.plan.getStep stepId = some step) :
    executor.segments stepId = 2 * step.attemptLimit + 2 := by
  unfold WorkflowExecutor.segments
  rw [isStep]
  rfl

theorem Within.awaitStep (apart : Apart executor layer)
    (within : Within executor behaviour start layer results) {stepId : String}
    (member : stepId ∈ layer) :
    Within executor behaviour start layer (executor.awaitStep behaviour results stepId) :=
  within.interleave apart fun _ repeated => List.eq_of_mem_replicate repeated ▸ member

theorem Within.ended_awaitStep (apart : Apart executor layer)
    (within : Within executor behaviour start layer results) {stepId : String}
    (member : stepId ∈ layer) :
    Interleaving.Ended (executor.executeStep behaviour)
      (executor.awaitStep behaviour results stepId) stepId := by
  obtain ⟨step, run, coroutine⟩ := within.inside stepId member
  refine within.ended_of_remaining_le apart member coroutine ?_
  rw [segments_eq coroutine.isStep]
  exact remaining_le run.control

/-- The schedule of a serial layer. -/
def serialSchedule (executor : WorkflowExecutor) (layer : List String) : List String :=
  layer.flatMap fun stepId => List.replicate (executor.segments stepId) stepId

theorem mem_of_mem_serialSchedule {stepId : String}
    (member : stepId ∈ serialSchedule executor layer) : stepId ∈ layer := by
  obtain ⟨other, isOther, repeated⟩ := List.mem_flatMap.mp member
  rwa [List.eq_of_mem_replicate repeated]

theorem serialSchedule_cons (stepId : String) (rest : List String) :
    serialSchedule executor (stepId :: rest) =
      List.replicate (executor.segments stepId) stepId ++ serialSchedule executor rest :=
  List.flatMap_cons

/-- A step that has ended stays as it is under the segments of others. -/
theorem ended_interleave_of_not_mem (apart : Apart executor layer) {stepId : String}
    (member : stepId ∈ layer) {schedule : List String}
    (inside : ∀ other ∈ schedule, other ∈ layer) (absent : stepId ∉ schedule) :
    Interleaving.Ended (executor.executeStep behaviour)
        (Interleaving.interleave (executor.executeStep behaviour) results schedule) stepId ↔
      Interleaving.Ended (executor.executeStep behaviour) results stepId := by
  refine Interleaving.ended_congr apart.independent member
    (Interleaving.interleave_of_not_mem absent) fun other outside => ?_
  exact Interleaving.interleave_of_not_mem fun scheduled => outside (inside other scheduled)

/-- The serial schedule ends every step of the layer. -/
theorem Within.ended_serialSchedule (apart : Apart executor layer)
    (within : Within executor behaviour start layer results) {steps : List String}
    (nodup : steps.Nodup) (inside : ∀ stepId ∈ steps, stepId ∈ layer) :
    ∀ stepId ∈ steps, Interleaving.Ended (executor.executeStep behaviour)
      (Interleaving.interleave (executor.executeStep behaviour) results
        (serialSchedule executor steps)) stepId := by
  induction steps generalizing results with
  | nil => exact fun _ member => nomatch member
  | cons first rest ih =>
      obtain ⟨absent, nodup⟩ := List.nodup_cons.mp nodup
      obtain ⟨member, inside⟩ := List.forall_mem_cons.mp inside
      rw [serialSchedule_cons, Interleaving.interleave_append]
      refine List.forall_mem_cons.mpr ⟨?_, ih (within.awaitStep apart member) nodup inside⟩
      rw [ended_interleave_of_not_mem apart member
        (fun other scheduled => inside other (mem_of_mem_serialSchedule scheduled))
        fun scheduled => absent (mem_of_mem_serialSchedule scheduled)]
      exact within.ended_awaitStep apart member

end Layer

/-! ## Layers -/

section Layers

variable {executor : WorkflowExecutor} {behaviour : Behaviour} {results : Results}

theorem escape_eq_some_iff {stepId : String} {escape : Escape} :
    WorkflowExecutor.escape results stepId = some escape ↔
      ∃ run, results stepId = some run ∧ run.control = .raised escape := by
  unfold WorkflowExecutor.escape
  cases results stepId with
  | none => simp
  | some run => cases isControl : run.control <;> simp [isControl]

theorem escape_congr {results' : Results} {stepId : String}
    (same : results stepId = results' stepId) :
    WorkflowExecutor.escape results stepId = WorkflowExecutor.escape results' stepId := by
  unfold WorkflowExecutor.escape
  rw [same]

/-- A serial layer runs its steps in order, up to the first that breaks off. -/
theorem executeLayerSerial_eq {layer : List String} (nodup : layer.Nodup) :
    (∃ final, final = Interleaving.interleave (executor.executeStep behaviour) results
        (serialSchedule executor layer) ∧
      executor.executeLayerSerial behaviour layer results = (.returned, final) ∧
        ∀ stepId ∈ layer, WorkflowExecutor.escape final stepId = none) ∨
      ∃ before stepId after escape final, layer = before ++ stepId :: after ∧
        final = Interleaving.interleave (executor.executeStep behaviour) results
          (serialSchedule executor (before ++ [stepId])) ∧
        executor.executeLayerSerial behaviour layer results = (.raised escape, final) ∧
          WorkflowExecutor.escape final stepId = some escape := by
  induction layer generalizing results with
  | nil => exact .inl ⟨results, rfl, rfl, fun _ member => nomatch member⟩
  | cons first rest ih =>
      obtain ⟨absent, nodup⟩ := List.nodup_cons.mp nodup
      unfold WorkflowExecutor.executeLayerSerial
      dsimp only
      cases breaks : WorkflowExecutor.escape (executor.awaitStep behaviour results first) first with
      | some escape =>
          refine .inr ⟨[], first, rest, escape, _, rfl, ?_, rfl, breaks⟩
          rw [List.nil_append, serialSchedule_cons]
          unfold serialSchedule
          rw [List.flatMap_nil, List.append_nil]
          rfl
      | none =>
          rw [serialSchedule_cons, Interleaving.interleave_append]
          rcases @ih (executor.awaitStep behaviour results first) nodup with
            ⟨final, isFinal, returned, noEscape⟩ |
              ⟨before, stepId, after, escape, final, rfl, isFinal, raised, isEscape⟩
          · refine .inl ⟨final, isFinal, returned, List.forall_mem_cons.mpr ⟨?_, noEscape⟩⟩
            rw [← breaks, isFinal]
            exact escape_congr (Interleaving.interleave_of_not_mem fun scheduled =>
              absent (mem_of_mem_serialSchedule scheduled))
          · refine .inr ⟨first :: before, stepId, after, escape, final, rfl, ?_, raised, isEscape⟩
            rw [List.cons_append, serialSchedule_cons, Interleaving.interleave_append]
            exact isFinal

/-! ## Between layers -/

/-- Between layers: the steps that are done have ended, and the others not begun. -/
structure Progress (executor : WorkflowExecutor) (behaviour : Behaviour) (done : List String)
    (results : Results) : Prop where
  ended : ∀ stepId ∈ done, ∃ step run,
    Coroutine executor behaviour results results stepId step run ∧
      remaining step run.control = 0
  fresh : ∀ stepId ∈ executor.plan.stepIds, stepId ∉ done →
    results stepId = some (.init stepId)
  closed : ∀ stepId ∈ done, ∀ dep ∈ executor.plan.dependencies stepId, dep ∈ done

variable {done layer : List String}

theorem progress_initial : Progress executor behaviour [] executor.initialResults :=
  ⟨nofun, fun _ known _ => if_pos known, nofun⟩

abbrev IsLayer (executor : WorkflowExecutor) (done layer : List String) : Prop :=
  Layers.Layer executor.plan.stepIds executor.plan.dependencies done layer

theorem apart_of_isLayer (isLayer : IsLayer executor done layer) : Apart executor layer :=
  fun stepId member dep isDep inside =>
    isLayer.fresh dep inside (isLayer.ready stepId member dep isDep)

theorem Progress.within (progress : Progress executor behaviour done results)
    (isLayer : IsLayer executor done layer) :
    Within executor behaviour results layer results := by
  refine ⟨fun _ _ => rfl, fun stepId member => ?_⟩
  have known := isLayer.known stepId member
  obtain ⟨step, isStep⟩ := WorkflowPlan.exists_getStep known
  have isRun := progress.fresh stepId known (isLayer.fresh stepId member)
  refine ⟨step, _, isStep, isRun, .created ?_⟩
  rw [(WorkflowPlan.getStep_spec isStep).2]

/-- A layer all of whose steps have ended is done. -/
theorem Progress.after {start : Results} (progress : Progress executor behaviour done start)
    (isLayer : IsLayer executor done layer)
    (within : Within executor behaviour start layer results)
    (ended : ∀ stepId ∈ layer,
      Interleaving.Ended (executor.executeStep behaviour) results stepId) :
    Progress executor behaviour (done ++ layer) results := by
  have kept (stepId : String) (old : stepId ∈ done) : results stepId = start stepId :=
    within.outside stepId fun inside => isLayer.fresh stepId inside old
  have deps {stepId : String} {step : WorkflowStep}
      (isStep : executor.plan.getStep stepId = some step)
      (before : ∀ dep ∈ executor.plan.dependencies stepId, dep ∈ done) :
      executor.skipError start step.dependsOn = executor.skipError results step.dependsOn := by
    refine skipError_congr fun dep isDep => (kept dep (before dep ?_)).symm
    rwa [WorkflowPlan.dependencies_of_getStep isStep]
  refine ⟨fun stepId member => ?_, fun stepId known absent => ?_, fun stepId member dep isDep => ?_⟩
  · rcases List.mem_append.mp member with old | new
    · obtain ⟨step, run, ⟨isStep, isRun, law⟩, none⟩ := progress.ended stepId old
      refine ⟨step, run, ⟨isStep, (kept stepId old).trans isRun, ?_⟩, none⟩
      rwa [← deps isStep (progress.closed stepId old)]
    · obtain ⟨step, run, coroutine⟩ := within.inside stepId new
      refine ⟨step, run, ⟨coroutine.isStep, coroutine.isRun, ?_⟩,
        coroutine.ended_iff.mp (ended stepId new)⟩
      rw [← deps coroutine.isStep (isLayer.ready stepId new)]
      exact coroutine.law
  · rw [within.outside stepId fun inside => absent (List.mem_append_right _ inside)]
    exact progress.fresh stepId known fun old => absent (List.mem_append_left _ old)
  · refine List.mem_append_left _ ?_
    rcases List.mem_append.mp member with old | new
    · exact progress.closed stepId old dep isDep
    · exact isLayer.ready stepId new dep isDep

/-- What a serial layer does between layers. -/
theorem Progress.executeLayerSerial (progress : Progress executor behaviour done results)
    (isLayer : IsLayer executor done layer) :
    (∃ final, executor.executeLayerSerial behaviour layer results = (.returned, final) ∧
      final = Interleaving.interleave (executor.executeStep behaviour) results
        (serialSchedule executor layer) ∧
      Within executor behaviour results layer final ∧
      ∀ stepId ∈ layer, Interleaving.Ended (executor.executeStep behaviour) final stepId ∧
        WorkflowExecutor.escape final stepId = none) ∨
      ∃ stepId ∈ layer, ∃ escape final,
        executor.executeLayerSerial behaviour layer results = (.raised escape, final) ∧
          Within executor behaviour results layer final ∧
          WorkflowExecutor.escape final stepId = some escape := by
  have within := progress.within isLayer
  have apart := apart_of_isLayer isLayer
  rcases executeLayerSerial_eq isLayer.nodup with ⟨final, isFinal, returned, noEscape⟩ |
    ⟨before, stepId, after, escape, final, split, isFinal, raised, isEscape⟩
  · refine .inl ⟨final, returned, isFinal, ?_, fun stepId member => ⟨?_, noEscape stepId member⟩⟩
    · rw [isFinal]
      exact within.interleave apart fun _ scheduled => mem_of_mem_serialSchedule scheduled
    · rw [isFinal]
      exact within.ended_serialSchedule apart isLayer.nodup (fun _ member => member) stepId member
  · have member : stepId ∈ layer := by
      rw [split]
      exact List.mem_append_right _ List.mem_cons_self
    refine .inr ⟨stepId, member, escape, final, raised, ?_, isEscape⟩
    rw [isFinal]
    refine within.interleave apart fun other scheduled => ?_
    rcases List.mem_append.mp (mem_of_mem_serialSchedule scheduled) with earlier | last
    · rw [split]
      exact List.mem_append_left _ earlier
    · rw [List.mem_singleton.mp last]
      exact member

/-- A parallel layer that is finished is an interleaving that ends all of its steps. -/
theorem executeLayerParallel_eq (schedule : List String) :
    executor.executeLayerParallel behaviour schedule layer results =
        (.returned, Interleaving.interleave (executor.executeStep behaviour) results
          (schedule.filter (· ∈ layer))) ∧
      (∀ stepId ∈ layer, Interleaving.Ended (executor.executeStep behaviour)
        (Interleaving.interleave (executor.executeStep behaviour) results
          (schedule.filter (· ∈ layer))) stepId) ∨
      (executor.executeLayerParallel behaviour schedule layer results).1 = .unfinished := by
  unfold WorkflowExecutor.executeLayerParallel
  dsimp only
  split
  · rename_i ended
    exact .inl ⟨rfl, ended⟩
  · exact .inr rfl

end Layers

end YouMi.Coordinator
