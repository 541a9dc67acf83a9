import YouMi.Coordinator.Plan
import YouMi.Python.JsonText
import YouMi.Python.Value
import Mathlib.Data.List.Lex
import Mathlib.Data.String.Basic

/-!
# Planning before executing

`WorkflowPlanner` asks a language model for a plan, or adapts the tasks of a plan
from an earlier run.  What the model answers is arbitrary text: it is read as JSON,
validated, and asked for again with the error until the attempts are used up.
-/

namespace YouMi.Coordinator

open YouMi.Python

/-! ## Plans with all their fields -/

variable {F : Type}

/-- `WorkflowStep` with all its fields; a float is only passed on. -/
structure FullStep (F : Type) where
  stepId : String
  role : String
  task : String
  name : String
  systemPrompt : String
  allowedTools : Option (List String)
  dependsOn : List String
  env : String
  configOverrides : Dict
  maxIterations : Int
  timeoutSeconds : F
  retryCount : Int
  retryBackoff : F

structure FullPlan (F : Type) where
  name : String
  steps : List (FullStep F)
  description : String
  metadata : Dict

/-- What the executor and `validate` read of a step; `printed` is the text of a timeout. -/
def FullStep.bare (printed : F → Option String) (step : FullStep F) : WorkflowStep :=
  ⟨step.stepId, step.dependsOn, step.retryCount, printed step.timeoutSeconds⟩

def FullPlan.bare (printed : F → Option String) (plan : FullPlan F) : WorkflowPlan :=
  ⟨plan.steps.map (FullStep.bare printed)⟩

/-- The order of the tuples `_skeleton_signature` sorts. -/
def tupleLe (first second : String × String × List String) : Bool :=
  first.1 < second.1 || first.1 == second.1 &&
    (first.2.1 < second.2.1 || first.2.1 == second.2.1 && first.2.2 ≤ second.2.2)

/-- `_skeleton_signature` -/
def FullPlan.skeletonSignature (plan : FullPlan F) : List (String × String × List String) :=
  (plan.steps.map fun step =>
    (step.stepId, step.role, step.dependsOn.mergeSort)).mergeSort tupleLe

/-- A signature as a value of the metadata, its tuples as lists. -/
def signatureValue (signature : List (String × String × List String)) : PyVal :=
  .list (signature.map fun entry =>
    .list [.str entry.1, .str entry.2.1, .list (entry.2.2.map .str)])

/-! ## The planner -/

inductive Failure where
  /-- An `Exception`, by its text. -/
  | exception (text : String)
  /-- A cancellation, which is not caught. -/
  | cancelled
  deriving DecidableEq, Repr

/-- A message to the language model; the prompts themselves are constants. -/
inductive PlanMessage where
  | planSystemPrompt
  | planUserTemplate (task : String)
  /-- The error of the attempt before, with the request to mend it. -/
  | correction (lastError : String)
  deriving DecidableEq, Repr

structure Planner (F : Type) where
  /-- The answers of the language model, call by call; without a client there are none. -/
  llmClient : Option (Nat → Except Failure String)
  /-- What `search_plan` of the plan memory does, if there is one. -/
  planMemory : Option (Except Failure (List (FullPlan F × PyVal)))
  maxRetries : Int
  /-- `WorkflowPlan(**data)`, or the text of what it raises. -/
  workflowPlan : Json → Except String (FullPlan F)
  /-- The text of a `JSONDecodeError`. -/
  decodeError : List Char → String
  /-- The text of a timeout, if it is positive. -/
  printed : F → Option String

inductive PlanEnding (F : Type) where
  | plan (plan : FullPlan F)
  | valueError (text : String)
  /-- What is raised elsewhere and not caught. -/
  | passedOn (failure : Failure)

structure PlanRun (F : Type) where
  ending : PlanEnding F
  /-- The messages of each attempt to generate a plan. -/
  attempts : List (List PlanMessage)

/-! ## Reading a reply -/

/-- The text before the first occurrence of a mark, and the text after it. -/
def cutAt (mark : List Char) : List Char → Option (List Char × List Char)
  | [] => none
  | c :: rest =>
      if mark.isPrefixOf (c :: rest) then some ([], (c :: rest).drop mark.length)
      else (cutAt mark rest).map fun parts => (c :: parts.1, parts.2)

/-- `text[:500]` -/
def first500 (text : String) : String := String.ofList (text.toList.take 500)

def fence : List Char := ['`', '`', '`']

def jsonMark : List Char := ['j', 's', 'o', 'n']

/-- The group of the first match of a fenced block, the word `json` left out. -/
def fencedBlock (text : List Char) : Option (List Char) :=
  (cutAt fence text).bind fun parts =>
    let body := if jsonMark.isPrefixOf parts.2 then parts.2.drop jsonMark.length else parts.2
    (cutAt fence (body.dropWhile isSpace)).map Prod.fst

namespace Planner

/-- `_parse_plan_json`, or the text of the `ValueError`. -/
def parsePlanJson (p : Planner F) (text : String) : Except String (FullPlan F) :=
  let stripped := trim isSpace text.toList
  let cleaned :=
    match fencedBlock stripped with
    | some block => trim isSpace block
    | none => stripped
  match Json.loads cleaned with
  | none =>
      .error ("LLM 输出不是合法 JSON: " ++ p.decodeError cleaned ++ "\n原始输出: " ++ first500 text)
  | some data =>
      match p.workflowPlan data with
      | .error text => .error ("WorkflowPlan schema 不匹配: " ++ text)
      | .ok plan => .ok plan

/-- The plan in an answer, or what the attempt fails with. -/
def planOf (p : Planner F) (answer : Except Failure String) : Except Failure (FullPlan F) :=
  match answer with
  | .error failure => .error failure
  | .ok response =>
      match p.parsePlanJson response with
      | .error text => .error (.exception text)
      | .ok plan =>
          match (plan.bare p.printed).validate with
          | [] => .ok plan
          | errors => .error (.exception ("; ".intercalate errors))

/-! ## Generating a plan -/

def messages (userTask : String) (attempt : Nat) (lastError : String) : List PlanMessage :=
  [.planSystemPrompt, .planUserTemplate userTask] ++
    if lastError ≠ "" ∧ 0 < attempt then [.correction lastError] else []

/-- The loop of `_plan_from_llm`, with the attempts that are left. -/
def generate (p : Planner F) (complete : Nat → Except Failure String) (userTask : String) :
    Nat → Nat → String → PlanRun F
  | 0, _, lastError =>
      ⟨.valueError ("WorkflowPlanner: 经过 " ++ toString (p.maxRetries + 1) ++
        " 次尝试仍无法生成合法的 WorkflowPlan。" ++ "最后错误：" ++ lastError), []⟩
  | left + 1, attempt, lastError =>
      let asked := messages userTask attempt lastError
      match p.planOf (complete attempt) with
      | .ok plan => ⟨.plan plan, [asked]⟩
      | .error .cancelled => ⟨.passedOn .cancelled, [asked]⟩
      | .error (.exception text) =>
          let run := p.generate complete userTask left (attempt + 1) text
          { run with attempts := asked :: run.attempts }

/-- `_plan_from_llm`, after the first calls of the client. -/
def planFromLlm (p : Planner F) (calls : Nat) (userTask : String) : PlanRun F :=
  match p.llmClient with
  | none =>
      ⟨.valueError "WorkflowPlanner: MasterAgent 没有可用的 LLM 客户端，无法生成 Plan", []⟩
  | some complete =>
      p.generate (fun n => complete (calls + n)) userTask (p.maxRetries + 1).toNat 0 ""

/-! ## Adapting a plan -/

/-- The adapted task of a step, or the one of the template. -/
def adaptedTask (adapted : FullPlan F) (index : Nat) (step : FullStep F) : String :=
  match adapted.steps[index]? with
  | none => step.task
  | some given => if given.task = "" then step.task else given.task

/-- `_apply_plan_template`, the first call of the client. -/
def applyPlanTemplate (p : Planner F) (template : FullPlan F) (userTask : String) :
    Except Failure (FullPlan F) :=
  match p.llmClient with
  | none =>
      .ok { template with
        steps := template.steps.mapIdx fun i step =>
          if i = 0 then { step with task := first500 userTask } else step }
  | some complete =>
      match complete 0 with
      | .error failure => .error failure
      | .ok response =>
          match p.parsePlanJson response with
          | .error text => .error (.exception text)
          | .ok adapted =>
              .ok { template with
                steps := template.steps.mapIdx fun i step =>
                  { step with task := first500 (adaptedTask adapted i step) } }

/-! ## The entry point -/

/-- The plan of the model, with its origin in the metadata. -/
def generateAnew (p : Planner F) (calls : Nat) (userTask : String) : PlanRun F :=
  let run := p.planFromLlm calls userTask
  match run.ending with
  | .plan plan =>
      { run with
        ending := .plan { plan with
          metadata := (plan.metadata.set "source" (.str "llm")).set "task" (.str userTask) } }
  | _ => run

/-- `generate_plan` -/
def generatePlan (p : Planner F) (userTask : String) : PlanRun F :=
  match p.planMemory with
  | none => p.generateAnew 0 userTask
  | some (.error failure) => ⟨.passedOn failure, []⟩
  | some (.ok []) => p.generateAnew 0 userTask
  | some (.ok ((template, similarity) :: _)) =>
      match p.applyPlanTemplate template userTask with
      | .error .cancelled => ⟨.passedOn .cancelled, []⟩
      | .error (.exception _) => p.generateAnew 1 userTask
      | .ok plan =>
          match (plan.bare p.printed).validate with
          | [] =>
              let metadata := (((plan.metadata.set "source" (.str "memory")).set "task"
                (.str userTask)).set "template_similarity" similarity).set "template_skeleton"
                  (signatureValue template.skeletonSignature)
              ⟨.plan { plan with metadata := metadata }, []⟩
          | _ => p.generateAnew 1 userTask

end Planner

/-! ## What adapting keeps -/

/-- The two steps differ in their task only. -/
def FullStep.SameButTask (first second : FullStep F) : Prop :=
  first = { second with task := first.task }

/-- A change of tasks alone, step by step. -/
structure FullPlan.Retasked (adapted template : FullPlan F) : Prop where
  name : adapted.name = template.name
  description : adapted.description = template.description
  metadata : adapted.metadata = template.metadata
  steps : List.Forall₂ FullStep.SameButTask adapted.steps template.steps

namespace FullPlan.Retasked

variable {adapted template : FullPlan F} (retasked : adapted.Retasked template)

include retasked

/-- What is read of the steps without their tasks is the same. -/
theorem map_eq {A : Type} {f : FullStep F → A}
    (blind : ∀ step task, f { step with task := task } = f step) :
    adapted.steps.map f = template.steps.map f := by
  have each {first second : FullStep F} (same : first.SameButTask second) : f first = f second := by
    rw [same, blind]
  rw [← List.forall₂_eq_eq_eq, List.forall₂_map_left_iff, List.forall₂_map_right_iff]
  exact retasked.steps.imp fun _ _ => each

theorem bare_eq (printed : F → Option String) : adapted.bare printed = template.bare printed :=
  congrArg WorkflowPlan.mk (retasked.map_eq fun _ _ => rfl)

theorem skeletonSignature_eq : adapted.skeletonSignature = template.skeletonSignature := by
  unfold skeletonSignature
  rw [retasked.map_eq fun _ _ => rfl]

end FullPlan.Retasked

theorem forall₂_mapIdx {R : FullStep F → FullStep F → Prop} (steps : List (FullStep F))
    (f : Nat → FullStep F → FullStep F) (each : ∀ i step, R (f i step) step) :
    List.Forall₂ R (steps.mapIdx f) steps := by
  induction steps generalizing f with
  | nil => exact .nil
  | cons step rest ih =>
      rw [List.mapIdx_cons]
      exact .cons (each 0 step) (ih _ fun i => each (i + 1))

theorem FullPlan.retasked_mapIdx (template : FullPlan F) {f : Nat → FullStep F → FullStep F}
    (each : ∀ i step, (f i step).SameButTask step) :
    FullPlan.Retasked { template with steps := template.steps.mapIdx f } template :=
  ⟨rfl, rfl, rfl, forall₂_mapIdx template.steps f each⟩

/-! ## How a run ends -/

/-- The ways a run over a sequence of answers may end. -/
def PlanRun.EndsBy (p : Planner F) (complete : Nat → Except Failure String) (budget : Nat)
    (run : PlanRun F) : Prop :=
  match run.ending with
  | .plan plan => (plan.bare p.printed).validate = []
  | .valueError _ => run.attempts.length = budget
  | .passedOn failure => failure = .cancelled ∧ ∃ n, complete n = .error .cancelled

namespace Planner

variable {p : Planner F}

theorem retasked_of_applyPlanTemplate {template adapted : FullPlan F} {userTask : String}
    (applied : p.applyPlanTemplate template userTask = .ok adapted) :
    adapted.Retasked template := by
  unfold applyPlanTemplate at applied
  split at applied
  · rw [← Except.ok.inj applied]
    refine template.retasked_mapIdx fun i step => ?_
    split <;> rfl
  · split at applied
    · cases applied
    · split at applied
      · cases applied
      · rw [← Except.ok.inj applied]
        exact template.retasked_mapIdx fun _ _ => rfl

/-- An adapted plan is valid exactly when its template is. -/
theorem validate_applyPlanTemplate {template adapted : FullPlan F} {userTask : String}
    (applied : p.applyPlanTemplate template userTask = .ok adapted) :
    (adapted.bare p.printed).validate = (template.bare p.printed).validate := by
  rw [(retasked_of_applyPlanTemplate applied).bare_eq]

theorem planOf_valid {answer : Except Failure String} {plan : FullPlan F}
    (found : p.planOf answer = .ok plan) : (plan.bare p.printed).validate = [] := by
  unfold planOf at found
  split at found
  · cases found
  · split at found
    · cases found
    · split at found
      · rename_i valid
        rw [← Except.ok.inj found]
        exact valid
      · cases found

/-- Only a cancelled call ends an attempt with a cancellation. -/
theorem planOf_cancelled {answer : Except Failure String}
    (ended : p.planOf answer = .error .cancelled) : answer = .error .cancelled := by
  unfold planOf at ended
  split at ended
  · exact congrArg Except.error (Except.error.inj ended)
  · split at ended
    · cases ended
    · split at ended <;> cases ended

theorem generate_endsBy (complete : Nat → Except Failure String) (userTask : String)
    (left attempt : Nat) (lastError : String) :
    (p.generate complete userTask left attempt lastError).EndsBy p complete left := by
  induction left generalizing attempt lastError with
  | zero => rfl
  | succ left ih =>
      rw [generate]
      dsimp only
      split
      · rename_i plan found
        exact planOf_valid found
      · rename_i ended
        exact ⟨rfl, attempt, planOf_cancelled ended⟩
      · rename_i text failed
        have rest := ih (attempt + 1) text
        unfold PlanRun.EndsBy at rest ⊢
        dsimp only
        split
        · rename_i ending
          rw [ending] at rest
          exact rest
        · rename_i ending
          rw [ending] at rest
          exact congrArg Nat.succ rest
        · rename_i ending
          rw [ending] at rest
          exact rest

/-- Every attempt but the first tells the model what the one before it failed with. -/
theorem generate_corrections (complete : Nat → Except Failure String) (userTask : String)
    (left attempt : Nat) (lastError : String) (k : Nat) {asked : List PlanMessage}
    (sent : (p.generate complete userTask left attempt lastError).attempts[k + 1]? = some asked) :
    ∃ text, p.planOf (complete (attempt + k)) = .error (.exception text) ∧
      asked = messages userTask (attempt + k + 1) text := by
  induction left generalizing attempt lastError k with
  | zero => cases sent
  | succ left ih =>
      rw [generate] at sent
      dsimp only at sent
      split at sent
      · cases sent
      · cases sent
      · rename_i text failed
        cases k with
        | zero =>
            refine ⟨text, failed, ?_⟩
            cases left with
            | zero => cases sent
            | succ left =>
                rw [generate] at sent
                dsimp only at sent
                split at sent <;> exact (Option.some.inj sent).symm
        | succ k =>
            obtain ⟨later, found, same⟩ := ih (attempt + 1) text k sent
            rw [Nat.add_right_comm attempt 1 k] at found same
            exact ⟨later, found, same⟩

/-! ## `generate_plan` -/

/-- How `generate_plan` ends, with a client or without. -/
def EndsWell (p : Planner F) (run : PlanRun F) : Prop :=
  match run.ending with
  | .plan plan => (plan.bare p.printed).validate = []
  | .valueError _ =>
      run.attempts.length = if p.llmClient.isSome then (p.maxRetries + 1).toNat else 0
  | .passedOn failure =>
      p.planMemory = some (.error failure) ∨
        failure = .cancelled ∧
          ∃ complete n, p.llmClient = some complete ∧ complete n = .error .cancelled

/-- A valid plan, or the error after all attempts. -/
def PlanOrExhausted (p : Planner F) (run : PlanRun F) : Prop :=
  match run.ending with
  | .plan plan => (plan.bare p.printed).validate = []
  | .valueError _ => (run.attempts.length : Int) = p.maxRetries + 1
  | .passedOn _ => False

theorem endsWell_planFromLlm (p : Planner F) (calls : Nat) (userTask : String) :
    p.EndsWell (p.planFromLlm calls userTask) := by
  unfold planFromLlm
  cases client : p.llmClient with
  | none => simp [EndsWell, client]
  | some complete =>
      have ends := generate_endsBy (p := p) (fun n => complete (calls + n)) userTask
        (p.maxRetries + 1).toNat 0 ""
      unfold PlanRun.EndsBy at ends
      unfold EndsWell
      dsimp only
      split
      · rename_i ending
        rw [ending] at ends
        exact ends
      · rename_i ending
        rw [ending] at ends
        rw [client]
        exact ends
      · rename_i ending
        rw [ending] at ends
        obtain ⟨rfl, n, stopped⟩ := ends
        exact .inr ⟨rfl, complete, calls + n, client, stopped⟩

theorem endsWell_generateAnew (p : Planner F) (calls : Nat) (userTask : String) :
    p.EndsWell (p.generateAnew calls userTask) := by
  have ends := endsWell_planFromLlm p calls userTask
  unfold generateAnew
  dsimp only
  split
  · rename_i plan ending
    unfold EndsWell at ends
    rw [ending] at ends
    exact ends
  · exact ends

theorem applyPlanTemplate_cancelled {template : FullPlan F} {userTask : String}
    (ended : p.applyPlanTemplate template userTask = .error .cancelled) :
    ∃ complete, p.llmClient = some complete ∧ complete 0 = .error .cancelled := by
  unfold applyPlanTemplate at ended
  split at ended
  · cases ended
  · rename_i complete client
    refine ⟨complete, client, ?_⟩
    split at ended
    · rename_i failure answer
      rw [answer, Except.error.inj ended]
    · split at ended <;> cases ended

theorem endsWell_generatePlan (p : Planner F) (userTask : String) :
    p.EndsWell (p.generatePlan userTask) := by
  unfold generatePlan
  split
  · exact endsWell_generateAnew p 0 userTask
  · rename_i failure search
    exact .inl search
  · exact endsWell_generateAnew p 0 userTask
  · split
    · rename_i ended
      obtain ⟨complete, client, stopped⟩ := applyPlanTemplate_cancelled ended
      exact .inr ⟨rfl, complete, 0, client, stopped⟩
    · exact endsWell_generateAnew p 1 userTask
    · split
      · rename_i valid
        exact valid
      · exact endsWell_generateAnew p 1 userTask

/-- The metadata names the task and the origin; a reused skeleton is the plan's own. -/
def HasOrigin (userTask : String) (plan : FullPlan F) : Prop :=
  plan.metadata.lookup "task" = some (.str userTask) ∧
    (plan.metadata.lookup "source" = some (.str "llm") ∨
      plan.metadata.lookup "source" = some (.str "memory") ∧
        plan.metadata.lookup "template_skeleton" = some (signatureValue plan.skeletonSignature))

theorem hasOrigin_generateAnew {calls : Nat} {userTask : String} {plan : FullPlan F}
    (planned : (p.generateAnew calls userTask).ending = .plan plan) :
    HasOrigin userTask plan := by
  unfold generateAnew at planned
  dsimp only at planned
  split at planned
  · rw [← PlanEnding.plan.inj planned]
    have ne : "source" ≠ "task" := by decide
    exact ⟨Dict.lookup_set_self, .inl ((Dict.lookup_set_ne ne).trans Dict.lookup_set_self)⟩
  · rename_i none
    exact absurd planned (none plan)

theorem hasOrigin_generatePlan {userTask : String} {plan : FullPlan F}
    (planned : (p.generatePlan userTask).ending = .plan plan) : HasOrigin userTask plan := by
  unfold generatePlan at planned
  split at planned
  · exact hasOrigin_generateAnew planned
  · cases planned
  · exact hasOrigin_generateAnew planned
  · split at planned
    · cases planned
    · exact hasOrigin_generateAnew planned
    · rename_i adapted applied
      split at planned
      · rw [← PlanEnding.plan.inj planned]
        have ne₁ : "task" ≠ "template_skeleton" := by decide
        have ne₂ : "task" ≠ "template_similarity" := by decide
        have ne₃ : "source" ≠ "template_skeleton" := by decide
        have ne₄ : "source" ≠ "template_similarity" := by decide
        have ne₅ : "source" ≠ "task" := by decide
        refine ⟨?_, .inr ⟨?_, ?_⟩⟩
        · rw [Dict.lookup_set_ne ne₁, Dict.lookup_set_ne ne₂, Dict.lookup_set_self]
        · rw [Dict.lookup_set_ne ne₃, Dict.lookup_set_ne ne₄, Dict.lookup_set_ne ne₅,
            Dict.lookup_set_self]
        · have same := (retasked_of_applyPlanTemplate applied).skeletonSignature_eq
          rw [Dict.lookup_set_self, ← same]
          rfl
      · exact hasOrigin_generateAnew planned

theorem generatePlan_exhausts (p : Planner F) (userTask : String) :
    (∀ template adapted, p.applyPlanTemplate template userTask = .ok adapted →
      adapted.steps.map FullStep.stepId = template.steps.map FullStep.stepId ∧
        List.Forall₂ FullStep.SameButTask adapted.steps template.steps) ∧
    p.EndsWell (p.generatePlan userTask) ∧
    ∀ complete, p.llmClient = some complete → (∀ n, complete n ≠ .error .cancelled) →
      (∀ failure, p.planMemory ≠ some (.error failure)) → 0 ≤ p.maxRetries + 1 →
        p.PlanOrExhausted (p.generatePlan userTask) := by
  refine ⟨fun template adapted applied => ?_, endsWell_generatePlan p userTask,
    fun complete client uncancelled found nonneg => ?_⟩
  · have retasked := retasked_of_applyPlanTemplate applied
    exact ⟨retasked.map_eq fun _ _ => rfl, retasked.steps⟩
  · have ends := endsWell_generatePlan p userTask
    unfold EndsWell at ends
    unfold PlanOrExhausted
    split at ends
    · exact ends
    · rw [client, Option.isSome_some, if_pos rfl] at ends
      rw [ends]
      exact Int.toNat_of_nonneg nonneg
    · rename_i failure _
      rcases ends with raised | ⟨_, _, n, same, stopped⟩
      · exact found failure raised
      · rw [client, Option.some.injEq] at same
        exact uncancelled n (same ▸ stopped)

/-- The model answers with an empty object in a fenced block, which is a plan without steps. -/
theorem generatePlan_exhausts_emptyObject :
    let step : FullStep Rat := ⟨"s1", "coder", "old", "", "", none, [], "", [], 20, 0, 2, 2⟩
    let template : FullPlan Rat := ⟨"workflow", [step], "", []⟩
    let p : Planner Rat := {
      llmClient := some fun _ => .ok "```json\n\x7b\x7d\n```"
      planMemory := some (.ok [])
      maxRetries := 2
      workflowPlan := fun _ => .ok ⟨"workflow", [], "", []⟩
      decodeError := fun _ => ""
      printed := fun seconds => if 0 < seconds then some "" else none }
    (∃ adapted, p.applyPlanTemplate template "new" = .ok adapted ∧
      adapted.steps.map FullStep.stepId = ["s1"]) ∧
    p.PlanOrExhausted (p.generatePlan "new") := by
  intro step template p
  obtain ⟨adapts, _, exhausts⟩ := generatePlan_exhausts p "new"
  have parsed : p.parsePlanJson "```json\n\x7b\x7d\n```" = .ok ⟨"workflow", [], "", []⟩ := rfl
  have short : first500 "old" = "old" := rfl
  have applied : p.applyPlanTemplate template "new" = .ok template := by
    simp [applyPlanTemplate, p, template, step, parsed, adaptedTask, short]
  refine ⟨⟨template, applied, (adapts template template applied).1⟩,
    exhausts _ rfl (fun _ stopped => ?_) (fun _ raised => ?_) (by decide)⟩
  · cases stopped
  · cases raised

/-- Without a client no attempt is made. -/
theorem not_planOrExhausted_withoutClient :
    let p : Planner Rat := {
      llmClient := none
      planMemory := none
      maxRetries := 2
      workflowPlan := fun _ => .error ""
      decodeError := fun _ => ""
      printed := fun _ => none }
    ¬ p.PlanOrExhausted (p.generatePlan "task") := by
  intro p exhausted
  have attempts : (0 : Int) = 2 + 1 := exhausted
  cases attempts

end Planner

end YouMi.Coordinator
