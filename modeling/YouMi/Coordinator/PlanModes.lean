import YouMi.Coordinator.PlanLaws

/-!
# Serial and parallel execution

Both modes do the same to the steps of a layer, unless one of them breaks off: then
the serial mode stops with its exception, and the parallel mode drops the exception
and goes on.
-/

namespace YouMi.Coordinator

open YouMi.Library

/-- The executor with the other mode is used for the same steps in the same way. -/
def WorkflowExecutor.withParallel (executor : WorkflowExecutor) (parallel : Bool) :
    WorkflowExecutor :=
  { executor with parallel := parallel }

section Modes

variable {executor : WorkflowExecutor} {behaviour : Behaviour} {parallel : Bool}

theorem skipError_withParallel (results : Results) (deps : List String) :
    (executor.withParallel parallel).skipError results deps =
      executor.skipError results deps := by
  induction deps with
  | nil => rfl
  | cons dep rest ih =>
      unfold WorkflowExecutor.skipError
      rw [ih]
      rfl

theorem executeStep_withParallel :
    (executor.withParallel parallel).executeStep behaviour = executor.executeStep behaviour := by
  funext stepId results
  unfold WorkflowExecutor.executeStep WorkflowExecutor.resume
  simp only [skipError_withParallel]
  rfl

theorem Progress.withParallel {done : List String} {results : Results}
    (progress : Progress executor behaviour done results) :
    Progress (executor.withParallel parallel) behaviour done results := by
  refine ⟨fun stepId isDone => ?_, progress.fresh, progress.closed⟩
  obtain ⟨step, run, ⟨isStep, isRun, law⟩, none⟩ := progress.ended stepId isDone
  refine ⟨step, run, ⟨isStep, isRun, ?_⟩, none⟩
  rwa [skipError_withParallel]

theorem executeLayerSerial_withParallel (layer : List String) (results : Results) :
    (executor.withParallel parallel).executeLayerSerial behaviour layer results =
      executor.executeLayerSerial behaviour layer results := by
  induction layer generalizing results with
  | nil => rfl
  | cons stepId rest ih =>
      have await : (executor.withParallel parallel).awaitStep behaviour results stepId =
          executor.awaitStep behaviour results stepId := by
        unfold WorkflowExecutor.awaitStep
        rw [executeStep_withParallel]
        rfl
      unfold WorkflowExecutor.executeLayerSerial
      simp only [await, ih]

theorem executeLayerParallel_withParallel (schedule layer : List String) (results : Results) :
    (executor.withParallel parallel).executeLayerParallel behaviour schedule layer results =
      executor.executeLayerParallel behaviour schedule layer results := by
  unfold WorkflowExecutor.executeLayerParallel
  rw [executeStep_withParallel]

/-! ## Agreement -/

/-- What is compared of a step. -/
def observed (results : Results) (stepId : String) :
    Option (StepStatus × Option String × Option TaskResult) :=
  (results stepId).map fun run => (run.result.status, run.result.error, run.result.taskResult)

/-- Two executions end alike, with the same results. -/
def Agree (first second : WorkflowExecutor.Ending × Results) : Prop :=
  first.1 = second.1 ∧ ∀ stepId, observed first.2 stepId = observed second.2 stepId

/-- The step is reached, and breaks off. -/
def Breaks (executor : WorkflowExecutor) (behaviour : Behaviour) (stepId : String) : Prop :=
  ∃ step ∈ executor.plan.steps, step.stepId = stepId ∧ Reached executor behaviour step ∧
    BreaksOff behaviour step

/-- In the first layer in which a step breaks off, it is the only step. -/
def BreaksAlone (breaks : String → Prop) : List (List String) → Prop
  | [] => True
  | layer :: rest =>
      ((∃ stepId ∈ layer, breaks stepId) → layer.length ≤ 1) ∧
        ((∀ stepId ∈ layer, ¬ breaks stepId) → BreaksAlone breaks rest)

theorem breaksAlone_of_none {breaks : String → Prop} (none : ∀ stepId, ¬ breaks stepId)
    (layers : List (List String)) : BreaksAlone breaks layers := by
  induction layers with
  | nil => trivial
  | cons layer rest ih =>
      refine ⟨?_, fun _ => ih⟩
      rintro ⟨stepId, _, isBreak⟩
      exact absurd isBreak (none stepId)

theorem breaksAlone_cons {breaks : String → Prop} {layer : List String}
    {rest : List (List String)} :
    BreaksAlone breaks (layer :: rest) ↔
      ((∃ stepId ∈ layer, breaks stepId) → layer.length ≤ 1) ∧
        ((∀ stepId ∈ layer, ¬ breaks stepId) → BreaksAlone breaks rest) := Iff.rfl

variable {results : Results} {done layer : List String}

/-- A step of a layer that has ended has broken off exactly if it was reached and breaks off. -/
theorem escape_iff_breaks (valid : executor.plan.Valid) {start : Results}
    (before : Progress executor behaviour done start) (isLayer : IsLayer executor done layer)
    {final : Results} (within : Within executor behaviour start layer final) {stepId : String}
    (member : stepId ∈ layer)
    (ended : Interleaving.Ended (executor.executeStep behaviour) final stepId) :
    (∃ escape, WorkflowExecutor.escape final stepId = some escape) ↔
      Breaks executor behaviour stepId := by
  obtain ⟨step, run, coroutine⟩ := within.inside stepId member
  obtain ⟨isMember, rfl⟩ := WorkflowPlan.getStep_spec coroutine.isStep
  have ready : ∀ dep ∈ step.dependsOn, dep ∈ done := by
    rw [← WorkflowPlan.dependencies_of_getStep coroutine.isStep]
    exact isLayer.ready step.stepId member
  have reached := before.skipError_eq_none_iff_reached valid isMember ready
  have isEscape : (∃ escape, WorkflowExecutor.escape final step.stepId = some escape) ↔
      ∃ escape, run.control = .raised escape := by
    refine exists_congr fun escape => ?_
    rw [escape_eq_some_iff, coroutine.isRun]
    simp
  have breaks : Breaks executor behaviour step.stepId ↔
      Reached executor behaviour step ∧ BreaksOff behaviour step := by
    constructor
    · rintro ⟨other, isOther, same, both⟩
      have isStep := WorkflowPlan.getStep_of_mem valid.nodup isOther
      rw [same] at isStep
      rwa [Option.some.inj (coroutine.isStep.symm.trans isStep)]
    · exact fun both => ⟨step, isMember, rfl, both⟩
  rw [isEscape, breaks]
  rcases ended_cases coroutine.law (coroutine.ended_iff.mp ended) with
    ⟨error, skip, _, _, control⟩ | ⟨noSkip, ends⟩
  · rw [control]
    refine iff_of_false (fun ⟨_, raised⟩ => nomatch raised) fun both => ?_
    rw [reached.mpr both.1] at skip
    cases skip
  · rw [ends.raised_iff]
    exact (and_iff_right (reached.mp noSkip)).symm

/-- A step with an escape has ended. -/
theorem ended_of_escape {start final : Results}
    (within : Within executor behaviour start layer final) {stepId : String}
    (member : stepId ∈ layer) {escape : Escape}
    (isEscape : WorkflowExecutor.escape final stepId = some escape) :
    Interleaving.Ended (executor.executeStep behaviour) final stepId ∧
      ∃ run, final stepId = some run ∧ run.result.status ≠ .pending := by
  obtain ⟨step, run, coroutine⟩ := within.inside stepId member
  obtain ⟨run', isRun', control⟩ := escape_eq_some_iff.mp isEscape
  obtain rfl := Option.some.inj (coroutine.isRun.symm.trans isRun')
  have none : remaining step run.control = 0 := by
    rw [control]
    rfl
  refine ⟨coroutine.ended_iff.mpr none, run, coroutine.isRun, fun pending => ?_⟩
  rcases ended_cases coroutine.law none with ⟨_, _, _, skipped, _⟩ | ⟨_, ends⟩
  · rw [skipped] at pending
    cases pending
  · rcases ends.status with other | other | other <;>
      exact StepStatus.noConfusion (other.symm.trans pending)

/-- An execution that raises has begun some step of the layers it was given. -/
theorem exists_begun_of_raised {schedule : List String → List String}
    {layers : List (List String)}
    (layered : Layers.Layered executor.plan.stepIds executor.plan.dependencies done layers)
    (progress : Progress executor behaviour done results) {escape : Escape} {final : Results}
    (raises : executor.executeLayers behaviour schedule layers results = (.raised escape, final)) :
    ∃ stepId ∈ layers.flatten, ∃ run, final stepId = some run ∧
      run.result.status ≠ .pending := by
  induction layered generalizing results with
  | nil done => exact nomatch (Prod.mk.inj raises).1
  | @cons done layer rest isLayer later ih =>
      rw [List.flatten_cons]
      rcases isRun : executor.executeLayer behaviour (schedule layer) layer results
        with ⟨ending, middle⟩
      by_cases stops : ending = .returned
      · subst stops
        rw [executeLayers_of_returned isRun] at raises
        obtain ⟨stepId, member, begun⟩ := ih (progress_of_layer progress isLayer isRun) raises
        exact ⟨stepId, List.mem_append_right _ member, begun⟩
      · rw [executeLayers_of_ne_returned isRun stops] at raises
        rw [raises] at isRun
        unfold WorkflowExecutor.executeLayer at isRun
        split at isRun
        · rcases executeLayerParallel_eq (schedule layer) with ⟨returned, _⟩ | unfinished
          · exact nomatch (Prod.mk.inj (returned.symm.trans isRun)).1
          · rw [isRun] at unfinished
            exact nomatch unfinished
        · rcases progress.executeLayerSerial isLayer with
            ⟨_, returned, _⟩ | ⟨stepId, member, other, last, raised, within, isEscape⟩
          · exact nomatch (Prod.mk.inj (returned.symm.trans isRun)).1
          · obtain rfl := (Prod.mk.inj (raised.symm.trans isRun)).2
            exact ⟨stepId, List.mem_append_left _ member,
              (ended_of_escape within member isEscape).2⟩

theorem executeLayer_serial (schedule : List String) :
    (executor.withParallel false).executeLayer behaviour schedule layer results =
      executor.executeLayerSerial behaviour layer results := by
  unfold WorkflowExecutor.executeLayer
  rw [if_neg fun parallel => Bool.noConfusion parallel.1, executeLayerSerial_withParallel]

theorem executeLayer_narrow (narrow : ¬ 1 < layer.length) (schedule : List String) :
    (executor.withParallel true).executeLayer behaviour schedule layer results =
      executor.executeLayerSerial behaviour layer results := by
  unfold WorkflowExecutor.executeLayer
  rw [if_neg fun both => narrow both.2, executeLayerSerial_withParallel]

theorem executeLayer_wide (wide : 1 < layer.length) (schedule : List String) :
    (executor.withParallel true).executeLayer behaviour schedule layer results =
      executor.executeLayerParallel behaviour schedule layer results := by
  unfold WorkflowExecutor.executeLayer
  rw [if_pos ⟨rfl, wide⟩, executeLayerParallel_withParallel]

/-- Both modes do the same to a layer in which no step breaks off. -/
theorem executeLayer_agree (isLayer : IsLayer executor done layer) {final : Results}
    (returned : executor.executeLayerSerial behaviour layer results = (.returned, final))
    (isFinal : final = Interleaving.interleave (executor.executeStep behaviour) results
      (serialSchedule executor layer))
    (ended : ∀ stepId ∈ layer, Interleaving.Ended (executor.executeStep behaviour) final stepId)
    {schedule : List String}
    (finished : ((executor.withParallel true).executeLayer behaviour schedule layer results).1 ≠
      .unfinished) :
    (executor.withParallel true).executeLayer behaviour schedule layer results =
      (.returned, final) := by
  by_cases wide : 1 < layer.length
  · rw [executeLayer_wide wide] at finished ⊢
    rcases executeLayerParallel_eq schedule with ⟨isRun, ended'⟩ | unfinished
    · rw [isRun, isFinal]
      rw [isFinal] at ended
      refine congrArg _ (Interleaving.interleave_eq (apart_of_isLayer isLayer).independent
        (fun stepId scheduled => ?_) (fun stepId scheduled => ?_) ended' ended)
      · simpa using (List.mem_filter.mp scheduled).2
      · exact mem_of_mem_serialSchedule scheduled
    · exact absurd unfinished finished
  · rw [executeLayer_narrow wide, returned]

/-- A layer that does not finish does not let the execution finish. -/
theorem executeLayer_finished {schedule : List String → List String} {rest : List (List String)}
    (finished : (executor.executeLayers behaviour schedule (layer :: rest) results).1 ≠
      .unfinished) :
    (executor.executeLayer behaviour (schedule layer) layer results).1 ≠ .unfinished := by
  intro unfinished
  refine finished ?_
  rw [executeLayers_of_ne_returned (Prod.ext unfinished rfl) (by decide)]

/-- After a step of a wide layer broke off, the modes differ. -/
theorem not_agree_of_wide (progress : Progress executor behaviour done results)
    (isLayer : IsLayer executor done layer) {rest : List (List String)}
    (later : Layers.Layered executor.plan.stepIds executor.plan.dependencies (done ++ layer) rest)
    (wide : 1 < layer.length) {schedule : List String → List String}
    (finished : ((executor.withParallel true).executeLayers behaviour schedule (layer :: rest)
      results).1 ≠ .unfinished)
    {escape : Escape} {final : Results} (within : Within executor behaviour results layer final) :
    ¬ Agree ((executor.withParallel true).executeLayers behaviour schedule (layer :: rest) results)
      (.raised escape, final) := by
  have isRun := executeLayer_finished finished
  rw [executeLayer_wide wide] at isRun
  rcases executeLayerParallel_eq (schedule layer) with ⟨returned, ended⟩ | unfinished
  · have isLayerRun := (executeLayer_wide wide (schedule layer)).trans returned
    rw [executeLayers_of_returned isLayerRun]
    intro agree
    have switched : Progress (executor.withParallel true) behaviour done results :=
      progress.withParallel
    have after := progress_of_layer switched isLayer isLayerRun
    have order : Layers.Layered (executor.withParallel true).plan.stepIds
        (executor.withParallel true).plan.dependencies (done ++ layer) rest := later
    have split (run : WorkflowExecutor.Ending × Results) (raised : run.1 = .raised escape) :
        run = (.raised escape, run.2) := Prod.ext raised rfl
    obtain ⟨other, isOther, run, isRun, begun⟩ :=
      exists_begun_of_raised order after (split _ agree.1)
    obtain ⟨known, absent⟩ := later.fresh other isOther
    have pending : final other = some (.init other) := by
      rw [within.outside other fun inside => absent (List.mem_append_right _ inside)]
      exact progress.fresh other known fun old => absent (List.mem_append_left _ old)
    have same := agree.2 other
    unfold observed at same
    dsimp only at same
    rw [isRun, pending] at same
    exact begun (Prod.mk.inj (Option.some.inj same)).1
  · exact absurd unfinished isRun

/-- The modes agree exactly if the first step that breaks off is alone in its layer. -/
theorem agree_layers_iff (valid : executor.plan.Valid) {schedule schedule' : List String → List String}
    {layers : List (List String)}
    (layered : Layers.Layered executor.plan.stepIds executor.plan.dependencies done layers)
    (progress : Progress executor behaviour done results)
    (finished : ((executor.withParallel true).executeLayers behaviour schedule layers results).1 ≠
      .unfinished) :
    Agree ((executor.withParallel true).executeLayers behaviour schedule layers results)
        ((executor.withParallel false).executeLayers behaviour schedule' layers results) ↔
      BreaksAlone (Breaks executor behaviour) layers := by
  induction layered generalizing results with
  | nil done => exact iff_of_true ⟨rfl, fun _ => rfl⟩ trivial
  | @cons done layer rest isLayer later ih =>
      have isRun := executeLayer_finished finished
      rcases progress.executeLayerSerial isLayer with
        ⟨final, returned, isFinal, within, ends⟩ |
          ⟨stepId, member, escape, final, raised, within, isEscape⟩
      · -- No step breaks off, and the layer ends alike in both modes.
        have ended (stepId : String) (member : stepId ∈ layer) := (ends stepId member).1
        have unbroken : ∀ stepId ∈ layer, ¬ Breaks executor behaviour stepId := by
          intro stepId member breaks
          obtain ⟨escape, isEscape⟩ := (escape_iff_breaks valid progress isLayer within member
            (ended stepId member)).mpr breaks
          rw [(ends stepId member).2] at isEscape
          cases isEscape
        have both := executeLayer_agree isLayer returned isFinal ended isRun
        rw [executeLayers_of_returned both] at finished ⊢
        rw [executeLayers_of_returned ((executeLayer_serial _).trans returned), breaksAlone_cons,
          ih (progress.after isLayer within ended) finished]
        constructor
        · refine fun alone => ⟨?_, fun _ => alone⟩
          rintro ⟨stepId, member, breaks⟩
          exact absurd breaks (unbroken stepId member)
        · exact fun alone => alone.2 unbroken
      · -- The serial mode stops here; the parallel mode does so in a layer of one step only.
        have breaks : Breaks executor behaviour stepId :=
          (escape_iff_breaks valid progress isLayer within member
            (ended_of_escape within member isEscape).1).mp ⟨escape, isEscape⟩
        rw [executeLayers_of_ne_returned ((executeLayer_serial _).trans raised)
          WorkflowExecutor.Ending.noConfusion, breaksAlone_cons]
        by_cases wide : 1 < layer.length
        · refine iff_of_false (not_agree_of_wide progress isLayer later wide finished within) ?_
          exact fun alone => Nat.not_le_of_lt wide (alone.1 ⟨stepId, member, breaks⟩)
        · rw [executeLayers_of_ne_returned ((executeLayer_narrow wide _).trans raised)
            WorkflowExecutor.Ending.noConfusion]
          refine iff_of_true ⟨rfl, fun _ => rfl⟩ ⟨fun _ => Nat.le_of_not_lt wide, fun none => ?_⟩
          exact absurd breaks (none stepId member)

/--
Parallel and serial execution end alike with the same results exactly if no step breaks
off, or the first layer in which one does has no other step.
-/
theorem agree_iff_breaksAlone (valid : executor.plan.validate = [])
    {schedule schedule' : List String → List String}
    {parallel serial : WorkflowExecutor.Ending × Results}
    (isParallel : (executor.withParallel true).execute behaviour schedule = .ok parallel)
    (finished : parallel.1 ≠ .unfinished)
    (isSerial : (executor.withParallel false).execute behaviour schedule' = .ok serial) :
    Agree parallel serial ↔
      BreaksAlone (Breaks executor behaviour) executor.plan.getExecutionOrder := by
  have isValid := WorkflowPlan.valid_of_validate valid
  have layers (parallel : Bool) (schedule : List String → List String) :
      (executor.withParallel parallel).execute behaviour schedule =
        .ok ((executor.withParallel parallel).executeLayers behaviour schedule
          executor.plan.getExecutionOrder executor.initialResults) := by
    have same : (executor.withParallel parallel).plan.validate = [] := valid
    exact execute_eq same schedule
  rw [layers] at isParallel isSerial
  obtain rfl := Except.ok.inj isParallel
  obtain rfl := Except.ok.inj isSerial
  exact agree_layers_iff isValid isValid.layered progress_initial finished

end Modes

/-- With a step that fails, in both modes. -/
theorem agree_iff_breaksAlone_failed : ∃ parallel serial,
    (forkedExecutor.withParallel true).execute failingFirst inTurns = .ok parallel ∧
      (forkedExecutor.withParallel false).execute failingFirst inTurns = .ok serial ∧
        Agree parallel serial := by
  have valid : forkedExecutor.plan.validate = [] := by decide
  refine ⟨_, _, rfl, rfl, (agree_iff_breaksAlone valid rfl (by decide) rfl).mpr
    (breaksAlone_of_none ?_ _)⟩
  rintro stepId ⟨step, member, _, _, n, ⟨less, _⟩, breaks⟩
  exact not_breaks_failingFirst member less breaks

theorem not_agree_cancelled : ∃ parallel serial,
    (forkedExecutor.withParallel true).execute cancelledFirst inTurns = .ok parallel ∧
      (forkedExecutor.withParallel false).execute cancelledFirst inTurns = .ok serial ∧
        ¬ Agree parallel serial := by
  refine ⟨_, _, rfl, rfl, fun agree => ?_⟩
  exact absurd agree.1 (by decide)

end YouMi.Coordinator
