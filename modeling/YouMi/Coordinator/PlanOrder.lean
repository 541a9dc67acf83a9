import YouMi.Coordinator.Execution

/-!
# The order of a plan

A step depends on the steps that its `depends_on` names.  `_detect_cycle` reports a
closed path of dependencies if there is one, and `get_execution_order` puts every step
of a valid plan in the layer that the longest chain of its dependencies asks for.
-/

namespace YouMi.Coordinator

open YouMi.Library

namespace WorkflowPlan

/-- The step names the other among its dependencies. -/
def DependsOn (plan : WorkflowPlan) (stepId dep : String) : Prop :=
  ∃ step ∈ plan.steps, step.stepId = stepId ∧ dep ∈ step.dependsOn

/-- No step depends on itself, directly or through others. -/
def Acyclic (plan : WorkflowPlan) : Prop :=
  ∀ stepId, ¬ Relation.TransGen plan.DependsOn stepId stepId

/-- Each element depends on the next one, and the first is the last. -/
structure ClosedDependencyPath (plan : WorkflowPlan) (cycle : List String) : Prop where
  long : 2 ≤ cycle.length
  dependencies : cycle.IsChain plan.DependsOn
  closed : cycle.head? = cycle.getLast?

/-- Steps of which each is a dependency of the next one, the last of them of the step. -/
def DependencyChain (plan : WorkflowPlan) (stepId : String) (chain : List String) : Prop :=
  (chain ++ [stepId]).IsChain fun dep step => plan.DependsOn step dep

/-- What the execution order of a plan has to be. -/
structure OrderedBy (plan : WorkflowPlan) (order : List (List String)) : Prop where
  /-- Every step is in one layer, and once. -/
  partition : order.flatten.Perm plan.stepIds
  earlier : ∀ index stepId, Layers.InLayer order index stepId →
    ∀ dep, plan.DependsOn stepId dep → ∃ before < index, Layers.InLayer order before dep
  /-- A layer has the number of the longest chain of dependencies to any of its steps. -/
  longest : ∀ index stepId, Layers.InLayer order index stepId →
    IsGreatest {length | ∃ chain, plan.DependencyChain stepId chain ∧ chain.length = length} index

variable {plan : WorkflowPlan}

theorem dependsOn_iff (nodup : plan.stepIds.Nodup) {stepId dep : String} :
    plan.DependsOn stepId dep ↔ dep ∈ plan.dependencies stepId := by
  constructor
  · rintro ⟨step, member, rfl, isDep⟩
    rwa [dependencies_of_getStep (getStep_of_mem nodup member)]
  · intro isDep
    unfold dependencies at isDep
    cases isStep : plan.getStep stepId with
    | none =>
        rw [isStep] at isDep
        cases isDep
    | some step =>
        rw [isStep] at isDep
        obtain ⟨member, isId⟩ := getStep_spec isStep
        exact ⟨step, member, isId, isDep⟩

theorem dependsOn_eq (nodup : plan.stepIds.Nodup) :
    plan.DependsOn = fun stepId dep => dep ∈ plan.dependencies stepId :=
  funext fun _ => funext fun _ => propext (dependsOn_iff nodup)

/-! ## The cycle search -/

theorem detectCycle_eq_none_iff (nodup : plan.stepIds.Nodup)
    (known : ∀ step ∈ plan.steps, ∀ dep ∈ step.dependsOn, dep ∈ plan.stepIds) :
    plan.detectCycle = none ↔ plan.Acyclic := by
  unfold Acyclic
  rw [dependsOn_eq nodup]
  constructor
  · intro noCycle stepId loop
    have closed : ∀ stepId ∈ plan.stepIds, ∀ dep ∈ plan.dependencies stepId,
        dep ∈ plan.stepIds := by
      intro stepId _ dep isDep
      obtain ⟨step, member, _, isDep⟩ := (dependsOn_iff nodup).mpr isDep
      exact known step member dep isDep
    -- A step on a cycle has a dependency, so it is a step of the plan.
    obtain ⟨dep, isDep, _⟩ := Relation.TransGen.head'_iff.mp loop
    obtain ⟨step, member, rfl, _⟩ := (dependsOn_iff nodup).mpr isDep
    have isStep : step.stepId ∈ plan.stepIds := List.mem_map_of_mem member
    exact (DepthFirst.grounded_of_findCycle closed noCycle _ isStep).not_transGen loop
  · intro acyclic
    cases found : plan.detectCycle with
    | none => rfl
    | some cycle =>
        obtain ⟨stepId, loop⟩ := (DepthFirst.closedPath_of_findCycle found).transGen
        exact absurd loop (acyclic stepId)

theorem closedDependencyPath_of_detectCycle (nodup : plan.stepIds.Nodup) {cycle : List String}
    (reports : plan.detectCycle = some cycle) : plan.ClosedDependencyPath cycle := by
  obtain ⟨long, steps, closed⟩ := DepthFirst.closedPath_of_findCycle reports
  exact ⟨long, by rwa [dependsOn_eq nodup], closed⟩

/-- Two steps that wait for each other, and one that waits for both. -/
def mutualPlan : WorkflowPlan :=
  ⟨[⟨"c", ["a", "b"], 0, none⟩, ⟨"a", ["b"], 0, none⟩, ⟨"b", ["a"], 0, none⟩]⟩

/-- A plan has no errors if its steps are distinct, known and in some order. -/
theorem validate_eq_nil_iff :
    plan.validate = [] ↔ plan.stepIds.Nodup ∧
      (∀ step ∈ plan.steps, ∀ dep ∈ step.dependsOn, dep ∈ plan.stepIds) ∧ plan.Acyclic := by
  constructor
  · intro noErrors
    obtain ⟨nodup, known, noCycle⟩ := valid_of_validate noErrors
    exact ⟨nodup, known, (detectCycle_eq_none_iff nodup known).mp noCycle⟩
  · rintro ⟨nodup, known, acyclic⟩
    have noErrors : plan.steps.flatMap plan.stepErrors = [] := by
      refine List.flatMap_eq_nil_iff.mpr fun step member => ?_
      have missing : step.dependsOn.filter (· ∉ plan.stepIds) = [] :=
        List.filter_eq_nil_iff.mpr fun dep isDep => by simpa using known step member dep isDep
      have notSelf : step.stepId ∉ step.dependsOn := fun isDep =>
        acyclic step.stepId (.single ⟨step, member, rfl, isDep⟩)
      unfold stepErrors
      rw [missing, if_neg notSelf]
      rfl
    unfold validate
    dsimp only
    rw [if_pos nodup, noErrors, (detectCycle_eq_none_iff nodup known).mpr acyclic]
    rfl

/-! ## The layers -/

namespace Valid

theorem orderedBy (valid : plan.Valid) : plan.OrderedBy plan.getExecutionOrder := by
  have layered := valid.layered
  have eager : Layers.Eager plan.dependencies [] plan.getExecutionOrder :=
    Layers.eager_layers plan.dependencies valid.nodup
  refine ⟨?_, fun index stepId inLayer dep isDep => ?_, fun index stepId inLayer => ?_⟩
  · refine (List.perm_ext_iff_of_nodup layered.nodup_flatten valid.nodup).mpr fun stepId => ?_
    exact ⟨fun member => (layered.fresh stepId member).1, valid.mem_getExecutionOrder stepId⟩
  · have isDep := (dependsOn_iff valid.nodup).mp isDep
    exact (layered.earlier inLayer dep isDep).resolve_left List.not_mem_nil
  · have same (chain : List String) : plan.DependencyChain stepId chain ↔
        Layers.ChainTo plan.dependencies stepId chain := by
      unfold DependencyChain Layers.ChainTo
      rw [dependsOn_eq valid.nodup]
    simp only [same]
    exact Layers.isGreatest_index layered eager inLayer

end Valid

/--
The loop of `get_execution_order` ends for a valid plan, and its layers are those of the
longest chains of dependencies.
-/
theorem getExecutionOrder_exact (noErrors : plan.validate = []) :
    Layers.Loop (Layers.children plan.stepIds plan.dependencies)
        (fun stepId => (plan.dependencies stepId).length)
        (plan.stepIds.filter fun stepId => ((plan.dependencies stepId).length : Int) = 0)
        plan.getExecutionOrder ∧
      plan.OrderedBy plan.getExecutionOrder := by
  have valid := valid_of_validate noErrors
  exact ⟨Layers.loop_layers plan.dependencies valid.nodup, valid.orderedBy⟩

/-- A step that names one dependency twice, and one that waits for it and for another. -/
def repeatedPlan : WorkflowPlan :=
  ⟨[⟨"c", ["b", "a"], 0, none⟩, ⟨"b", ["a", "a"], 0, none⟩, ⟨"a", [], 0, none⟩]⟩

theorem getExecutionOrder_exact_repeatedPlan :
    repeatedPlan.OrderedBy [["a"], ["b"], ["c"]] :=
  (@getExecutionOrder_exact repeatedPlan (by decide)).2

end WorkflowPlan

end YouMi.Coordinator
