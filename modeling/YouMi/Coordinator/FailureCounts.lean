import YouMi.Library.Runs
import YouMi.Coordinator.PostTask

/-!
# Failures over the tasks of a master

`MasterAgent.on_stop` makes a new pipeline after each task, so that the failures against
which the threshold is compared are those in the conversations of the sub-agents at that
time.  They are the failures since the last update of the tool exactly if these
conversations hold as many.
-/

namespace YouMi.Coordinator

open YouMi.Core YouMi.Library YouMi.Python

/-! ## What is compared -/

namespace PostTaskPipeline

variable {use : PipelineUse} {s : PostTaskPipeline} {exp : ToolExperience}

@[simp]
theorem failures_withFailures (toolName other : String) (count : Nat) :
    (s.withFailures toolName count).failures other =
      if other = toolName then count else s.failures other := by
  unfold withFailures failures
  rw [OrderedDict.lookup_assign]
  split <;> rfl

/-- The comparison for a tool, and that the counts of the others are left alone. -/
structure Compares (s : PostTaskPipeline) (exp : ToolExperience)
    (updated : PostTaskPipeline × Option Comparison × Except Fault Unit) : Prop where
  count : ∀ comparison ∈ updated.2.1, comparison.toolName = exp.toolName ∧
    comparison.count = s.failures exp.toolName + exp.failureCount
  others : ∀ other, other ≠ exp.toolName → updated.1.failures other = s.failures other

theorem compare_spec (use : PipelineUse) (s : PostTaskPipeline) (exp : ToolExperience) :
    Compares s exp (s.compare use exp) := by
  have others (count : Nat) (other : String) (ne : other ≠ exp.toolName) :
      (s.withFailures exp.toolName count).failures other = s.failures other := by simp [ne]
  have cleared (count : Nat) (other : String) (ne : other ≠ exp.toolName) :
      ((s.withFailures exp.toolName count).withFailures exp.toolName 0).failures other =
        s.failures other := by simp [ne]
  have noted {count : Nat} {updated : Bool} {comparison : Comparison}
      (member : comparison ∈ some (⟨exp.toolName, count, updated⟩ : Comparison)) :
      comparison.toolName = exp.toolName ∧ comparison.count = count := by
    obtain rfl := Option.some.inj member
    exact ⟨rfl, rfl⟩
  unfold compare
  dsimp only
  split
  · split
    · exact ⟨fun _ => noted, others _⟩
    · split
      · split
        · exact ⟨fun _ => noted, others _⟩
        · exact ⟨fun _ => noted, cleared _⟩
      · exact ⟨fun _ => noted, others _⟩
  · exact ⟨fun _ => noted, others _⟩

theorem updateFailures_spec (use : PipelineUse) (s : PostTaskPipeline) (exp : ToolExperience) :
    Compares s exp (s.updateFailures use exp) := by
  have nothing (result : Except Fault Unit) : Compares s exp (s, none, result) :=
    ⟨fun _ member => (nomatch member), fun _ _ => rfl⟩
  unfold updateFailures
  split
  · exact nothing _
  · split
    · exact nothing _
    · exact nothing _
    · dsimp only
      split
      · exact nothing _
      · exact compare_spec use s exp

/-- Each comparison adds the failures of one experience to what was there before the stage. -/
theorem updateGlobalMemory_spec (use : PipelineUse) (s : PostTaskPipeline)
    {experiences : List ToolExperience}
    (distinct : (experiences.map ToolExperience.toolName).Nodup) :
    ∀ comparison ∈ (s.updateGlobalMemory use experiences).2.1, ∃ exp ∈ experiences,
      comparison.toolName = exp.toolName ∧
        comparison.count = s.failures exp.toolName + exp.failureCount := by
  induction experiences generalizing s with
  | nil => exact fun _ member => absurd member List.not_mem_nil
  | cons exp rest ih =>
      obtain ⟨absent, later⟩ := List.nodup_cons.mp distinct
      obtain ⟨count, others⟩ := updateFailures_spec use s exp
      unfold updateGlobalMemory
      generalize s.updateFailures use exp = updated at count others ⊢
      obtain ⟨after, made, result⟩ := updated
      have first : ∀ comparison ∈ made.toList, ∃ exp' ∈ exp :: rest,
          comparison.toolName = exp'.toolName ∧
            comparison.count = s.failures exp'.toolName + exp'.failureCount :=
        fun comparison member =>
          ⟨exp, List.mem_cons_self, count comparison (Option.mem_toList.mp member)⟩
      cases result with
      | error fault => exact first
      | ok value =>
          intro comparison member
          rcases List.mem_append.mp member with here | there
          · exact first comparison here
          · obtain ⟨other, isOther, name, counted⟩ := ih after later comparison there
            have ne : other.toolName ≠ exp.toolName := fun same =>
              absent (List.mem_map.mpr ⟨other, isOther, same⟩)
            rw [others _ ne] at counted
            exact ⟨other, List.mem_cons_of_mem _ isOther, name, counted⟩

theorem process_compares (use : PipelineUse) (s : PostTaskPipeline) {given : List Reading}
    {experiences : List ToolExperience}
    (distinct : (experiences.map ToolExperience.toolName).Nodup)
    (experienced : ∀ exp ∈ experiences, Experienced exp given) :
    ∀ comparison ∈ (s.process use experiences).comparisons,
      comparison.count = s.failures comparison.toolName +
        (failed (ofTool comparison.toolName given)).length := by
  have stage : ∀ comparison ∈ (if s.globalMemory then
      s.updateGlobalMemory use experiences else (s, [], .ok ())).2.1,
      comparison.count = s.failures comparison.toolName +
        (failed (ofTool comparison.toolName given)).length := by
    split
    · intro comparison member
      obtain ⟨exp, isExp, name, counted⟩ :=
        updateGlobalMemory_spec use s distinct comparison member
      rw [counted, name, (experienced exp isExp).failures]
    · exact fun _ member => absurd member List.not_mem_nil
  unfold process
  generalize (if s.globalMemory then s.updateGlobalMemory use experiences
    else (s, [], .ok ())) = updated at stage ⊢
  obtain ⟨after, comparisons, result⟩ := updated
  dsimp only at stage ⊢
  cases caught result with
  | error fault => exact stage
  | ok value => exact stage

/-- A run compares the failures counted before with those that it reads. -/
theorem run_compares (use : PipelineUse) (s : PostTaskPipeline)
    (conversations : List (List Entry)) :
    ∀ comparison ∈ (s.run use conversations).comparisons,
      comparison.count = s.failures comparison.toolName +
        (failed (ofTool comparison.toolName (conversations.flatMap readings))).length := by
  unfold run
  cases collected : collectToolExperiences use.hashableSlices conversations with
  | none => exact fun _ member => absurd member List.not_mem_nil
  | some experiences =>
      obtain ⟨distinct, experienced⟩ := collect_spec collected
      cases use.between with
      | error fault => exact fun _ member => absurd member List.not_mem_nil
      | ok value => exact process_compares use s distinct experienced

end PostTaskPipeline

/-! ## Tasks one after another -/

/-- A task that ends: the tool messages that its sub-agents have written, whether one of them has
a result, and what the pipeline finds in the conversations and meets. -/
structure EndedTask where
  calls : List Reading
  completed : Bool
  conversations : List (List Entry)
  toolStore : Bool
  use : PipelineUse

/-- A master, with the failed calls of each tool since its last update. -/
structure MasterAgent where
  globalMemory : Bool
  since : String → List Reading := fun _ => []

namespace MasterAgent

/-- `on_stop`, as far as the run of the pipeline is concerned. -/
def onStop (s : MasterAgent) (task : EndedTask) : Option PostTaskPipeline.Ran :=
  if task.completed then
    let pipeline : PostTaskPipeline :=
      { toolStore := task.toolStore, globalMemory := s.globalMemory }
    some (pipeline.run task.use task.conversations)
  else none

def comparisons (s : MasterAgent) (task : EndedTask) : List Comparison :=
  (s.onStop task).elim [] PostTaskPipeline.Ran.comparisons

/-- The failed calls of a tool since its last update, those of the task included. -/
def failedCalls (s : MasterAgent) (task : EndedTask) (toolName : String) : List Reading :=
  s.since toolName ++ failed (ofTool toolName task.calls)

def step (s : MasterAgent) (task : EndedTask) : MasterAgent :=
  { s with since := fun toolName =>
      if ∃ comparison ∈ s.comparisons task,
        comparison.toolName = toolName ∧ comparison.updated = true then []
      else s.failedCalls task toolName }

/-- The threshold is compared with the failures in all tasks since the last update. -/
def Accumulates (s : MasterAgent) (task : EndedTask) : Prop :=
  ∀ comparison ∈ s.comparisons task,
    comparison.count = (s.failedCalls task comparison.toolName).length

/-- The conversations hold as many failed messages of a tool as there were since its last
update, when the tool is looked at. -/
def HoldsFailures (s : MasterAgent) (task : EndedTask) : Prop :=
  ∀ comparison ∈ s.comparisons task,
    (failed (ofTool comparison.toolName (task.conversations.flatMap readings))).length =
      (s.failedCalls task comparison.toolName).length

/-- What is compared after a task is what its conversations hold. -/
theorem count_comparisons (s : MasterAgent) (task : EndedTask) :
    ∀ comparison ∈ s.comparisons task, comparison.count =
      (failed (ofTool comparison.toolName (task.conversations.flatMap readings))).length := by
  intro comparison member
  unfold comparisons onStop at member
  split at member
  · have counted := PostTaskPipeline.run_compares _ _ _ comparison member
    rw [counted]
    simp [PostTaskPipeline.failures]
  · exact absurd member List.not_mem_nil

/-- The failures of a tool accumulate in a run of tasks exactly if the conversations hold them
at every comparison. -/
theorem accumulates_throughout_iff (globalMemory : Bool) (tasks : List EndedTask) :
    StepsMeet step Accumulates { globalMemory := globalMemory } tasks ↔
      StepsMeet step HoldsFailures { globalMemory := globalMemory } tasks := by
  refine stepsMeet_congr step (fun _ => True) (fun _ _ _ => trivial) (fun s task _ => ?_) trivial
    tasks
  have counted := s.count_comparisons task
  constructor
  · intro accumulates comparison member
    rw [← counted comparison member]
    exact accumulates comparison member
  · intro holds comparison member
    rw [counted comparison member]
    exact holds comparison member

/-! ## A conversation that begins anew -/

/-- A task in which a sub-agent, whose conversation begins anew, gets two errors from a tool. -/
def twoErrors (number : Nat) : EndedTask :=
  let conversation : List Entry :=
    [⟨number, .assistant none [⟨"call", "t"⟩]⟩,
      ⟨number + 1, .tool "call" (.error false "boom")⟩,
      ⟨number + 2, .tool "call" (.error false "boom")⟩]
  { calls := readings conversation
    completed := true
    conversations := [conversation]
    toolStore := true
    use := .willing }

/-- After two tasks with two failures each, two failures are compared. -/
theorem failures_forgotten :
    ¬StepsMeet step Accumulates { globalMemory := true } [twoErrors 0, twoErrors 3] := by
  rintro ⟨-, second, -⟩
  have compared := second ⟨"t", 2, false⟩ (by decide +kernel)
  revert compared
  decide +kernel

end MasterAgent

end YouMi.Coordinator
