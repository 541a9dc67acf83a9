import YouMi.Core.Versioning
import YouMi.Coordinator.ToolExperiences

/-!
# The pipeline after a task

`PostTaskPipeline` of `coordinator/post_task.py`: the experiences of a run are added to the
counts of failures, which may trigger a new version of a tool, and to the counts of
successes, which may promote it.  What memories, stores and verifiers answer is an input.
-/

namespace YouMi.Coordinator

open YouMi.Core YouMi.Library YouMi.Python

structure PostTaskPipeline where
  /-- There is a store, and it can promote. -/
  toolStore : Bool
  globalMemory : Bool
  failureCounts : OrderedDict String Nat := []
  successCounts : OrderedDict String Nat := []

/-- What a run meets: how the stages between the first and the fourth end, and what is answered
for each tool.  `trigger` is `trigger_tool_version_update`, `verify` is `_verify_candidate`. -/
structure PipelineUse where
  hashableSlices : Bool
  between : Except Fault Unit
  addExperience : String → Except Fault Unit
  analyzeFailures : String → Except Fault Unit
  trigger : String → Except Fault (Option String)
  recordFix : String → Except Fault Unit
  verify : String → Except Fault Bool
  promote : String → Except Fault (Option String)

/-- Stores and verifiers that answer in every case, and make no new versions. -/
def PipelineUse.willing : PipelineUse where
  hashableSlices := true
  between := .ok ()
  addExperience := fun _ => .ok ()
  analyzeFailures := fun _ => .ok ()
  trigger := fun _ => .ok none
  recordFix := fun _ => .ok ()
  verify := fun _ => .ok true
  promote := fun toolName => .ok (some toolName)

/-- `except Exception`: `none` where one is caught. -/
def caught {α : Type} : Except Fault α → Except Fault (Option α)
  | .ok value => .ok (some value)
  | .error fault => if fault.isException then .ok none else .error fault

/-- The truth of an id. -/
def isId (toolId : Option String) : Bool := toolId.any (· ≠ "")

/-- The failures of a tool against which the threshold is compared, and whether a new version
was made. -/
structure Comparison where
  toolName : String
  count : Nat
  updated : Bool
  deriving DecidableEq

/-- The work of stage 5 on a tool: the successes with which it was promoted, if it was. -/
structure Handling where
  toolName : String
  promoted : Option Nat
  deriving DecidableEq

namespace PostTaskPipeline

/-! ## Failures -/

def failures (s : PostTaskPipeline) (toolName : String) : Nat :=
  (s.failureCounts.lookup toolName).getD 0

def withFailures (s : PostTaskPipeline) (toolName : String) (count : Nat) : PostTaskPipeline :=
  { s with failureCounts := s.failureCounts.assign toolName count }

/-- The comparison with the threshold, after the failures have been added. -/
def compare (use : PipelineUse) (s : PostTaskPipeline) (exp : ToolExperience) :
    PostTaskPipeline × Option Comparison × Except Fault Unit :=
  let count := s.failures exp.toolName + exp.failureCount
  let counted := s.withFailures exp.toolName count
  if 3 ≤ count ∧ exp.successRate < 1 / 2 then
    match use.trigger exp.toolName with
    | .error fault => (counted, some ⟨exp.toolName, count, false⟩, .error fault)
    | .ok newToolId =>
        if isId newToolId then
          match caught (use.recordFix exp.toolName) with
          | .error fault => (counted, some ⟨exp.toolName, count, true⟩, .error fault)
          | .ok _ =>
              (counted.withFailures exp.toolName 0, some ⟨exp.toolName, count, true⟩, .ok ())
        else (counted, some ⟨exp.toolName, count, false⟩, .ok ())
  else (counted, some ⟨exp.toolName, count, false⟩, .ok ())

/-- One experience in `update_global_memory`. -/
def updateFailures (use : PipelineUse) (s : PostTaskPipeline) (exp : ToolExperience) :
    PostTaskPipeline × Option Comparison × Except Fault Unit :=
  if exp.usageCount = 0 then (s, none, .ok ())
  else
    match caught (use.addExperience exp.toolName) with
    | .error fault => (s, none, .error fault)
    | .ok none => (s, none, .ok ())
    | .ok (some ()) =>
        let analyzed := if exp.failurePatterns ≠ [] ∧ exp.successRate < 7 / 10 then
          caught (use.analyzeFailures exp.toolName) else .ok none
        match analyzed with
        | .error fault => (s, none, .error fault)
        | .ok _ => s.compare use exp

def updateGlobalMemory (use : PipelineUse) :
    PostTaskPipeline → List ToolExperience →
      PostTaskPipeline × List Comparison × Except Fault Unit
  | s, [] => (s, [], .ok ())
  | s, exp :: rest =>
      match s.updateFailures use exp with
      | (s, comparison, .error fault) => (s, comparison.toList, .error fault)
      | (s, comparison, .ok ()) =>
          let (s, comparisons, result) := updateGlobalMemory use s rest
          (s, comparison.toList ++ comparisons, result)

/-! ## Successes -/

def successes (s : PostTaskPipeline) (toolName : String) : Nat :=
  (s.successCounts.lookup toolName).getD 0

def withSuccesses (s : PostTaskPipeline) (toolName : String) (count : Nat) : PostTaskPipeline :=
  { s with successCounts := s.successCounts.assign toolName count }

/-- The verified tool is promoted, if the store does it; its count begins anew then. -/
def promoteTool (use : PipelineUse) (s : PostTaskPipeline) (toolName : String) (total : Nat) :
    PostTaskPipeline × Handling × Except Fault Unit :=
  match caught (use.promote toolName) with
  | .error fault => (s, ⟨toolName, none⟩, .error fault)
  | .ok promoted =>
      if isId (promoted.getD none) then
        (s.withSuccesses toolName 0, ⟨toolName, some total⟩, .ok ())
      else (s, ⟨toolName, none⟩, .ok ())

/-- One experience in `update_tool_versions`. -/
def updateVersion (use : PipelineUse) (s : PostTaskPipeline) (exp : ToolExperience) :
    PostTaskPipeline × Handling × Except Fault Unit :=
  if exp.usageCount = 0 then (s, ⟨exp.toolName, none⟩, .ok ())
  else if 0 < exp.failureCount then
    (s.withSuccesses exp.toolName 0, ⟨exp.toolName, none⟩, .ok ())
  else
    let total := s.successes exp.toolName + exp.usageCount
    let counted := s.withSuccesses exp.toolName total
    if isPromotionEligible total exp.failureCount then
      match use.verify exp.toolName with
      | .error fault => (counted, ⟨exp.toolName, none⟩, .error fault)
      | .ok false => (counted, ⟨exp.toolName, none⟩, .ok ())
      | .ok true => counted.promoteTool use exp.toolName total
    else (counted, ⟨exp.toolName, none⟩, .ok ())

def updateVersions (use : PipelineUse) :
    PostTaskPipeline → List ToolExperience →
      PostTaskPipeline × List Handling × Except Fault Unit
  | s, [] => (s, [], .ok ())
  | s, exp :: rest =>
      match s.updateVersion use exp with
      | (s, handling, .error fault) => (s, [handling], .error fault)
      | (s, handling, .ok ()) =>
          let (s, handlings, result) := updateVersions use s rest
          (s, handling :: handlings, result)

def updateToolVersions (use : PipelineUse) (s : PostTaskPipeline)
    (experiences : List ToolExperience) : PostTaskPipeline × List Handling × Except Fault Unit :=
  if s.toolStore then s.updateVersions use experiences else (s, [], .ok ())

/-! ## A run -/

/-- What a run leaves: the pipeline, the comparisons of stage 4, the work of stage 5 and how the
run ends. -/
structure Ran where
  pipeline : PostTaskPipeline
  comparisons : List Comparison := []
  handlings : List Handling := []
  result : Except Fault Unit

/-- The stages 4 and 5: of the first, an exception is logged. -/
def process (use : PipelineUse) (s : PostTaskPipeline) (experiences : List ToolExperience) : Ran :=
  let (afterFailures, comparisons, fourth) :=
    if s.globalMemory then s.updateGlobalMemory use experiences else (s, [], .ok ())
  match caught fourth with
  | .error fault =>
      { pipeline := afterFailures, comparisons := comparisons, result := .error fault }
  | .ok _ =>
      let (afterVersions, handlings, fifth) := afterFailures.updateToolVersions use experiences
      { pipeline := afterVersions
        comparisons := comparisons
        handlings := handlings
        result := (caught fifth).map fun _ => () }

/-- `run`. -/
def run (use : PipelineUse) (s : PostTaskPipeline) (conversations : List (List Entry)) : Ran :=
  match collectToolExperiences use.hashableSlices conversations with
  | none => { pipeline := s, result := .error (.exception "collect_tool_experiences") }
  | some experiences =>
      match use.between with
      | .error fault => { pipeline := s, result := .error fault }
      | .ok () => s.process use experiences

end PostTaskPipeline

end YouMi.Coordinator
