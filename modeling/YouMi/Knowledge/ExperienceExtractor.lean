import YouMi.Coordinator.ToolExperiences

/-!
# Experience with one tool

`ToolExperienceExtractor` of `knowledge/experience_extractor.py` reads one conversation for
one tool.  A message is a failure if its text is a JSON object with an error.
-/

namespace YouMi.Knowledge

open YouMi.Coordinator YouMi.Core YouMi.Python

structure ToolExperienceExtractor where
  maxSamples : Int := 3

/-- The name in the first request with the id. -/
def requested (entries : List Entry) (toolCallId : String) : Option String :=
  entries.findSome? fun entry =>
    match entry.message with
    | .assistant _ toolCalls =>
        (toolCalls.find? fun call => call.id = toolCallId).map ToolCall.name
    | _ => none

/-- `_match_tool_call` -/
def matchToolCall (conversation : List Entry) (toolCallId toolName : String) : Bool :=
  toolCallId ≠ "" && requested conversation.reverse toolCallId = some toolName

/-- `_is_error` -/
def isError (content : List Char) : Bool :=
  match Json.loads content with
  | some (.dict entries) => (entries.lookup Json.errorKey).isSome
  | _ => false

/-- Whether a message of the conversation is a failure of the tool; `none` where it is passed
over. -/
def judgement (conversation : List Entry) (toolName : String) (entry : Entry) : Option Bool :=
  match entry.message with
  | .tool toolCallId content =>
      if matchToolCall conversation toolCallId toolName then some (isError (written content))
      else none
  | _ => none

/-- `stats` in `extract`. -/
structure Extracted where
  success : Nat := 0
  failure : Nat := 0
  failures : List (List Char) := []
  successes : List (List Char) := []

namespace ToolExperienceExtractor

/-- The text is noted as a sample, if there is room for it. -/
def sample (extractor : ToolExperienceExtractor) (samples : List (List Char))
    (text : List Char) : List (List Char) :=
  if samples.length < extractor.maxSamples then samples ++ [text] else samples

/-- One message in `extract`. -/
def count (extractor : ToolExperienceExtractor) (conversation : List Entry) (toolName : String)
    (stats : Extracted) (entry : Entry) : Extracted :=
  match entry.message with
  | .tool _ content =>
      match judgement conversation toolName entry with
      | none => stats
      | some true =>
          { stats with
            failure := stats.failure + 1
            failures := extractor.sample stats.failures ((written content).take 200) }
      | some false =>
          { stats with
            success := stats.success + 1
            successes := extractor.sample stats.successes ((written content).take 100) }
  | _ => stats

/-- `stats` at the end of the loop. -/
def extracted (extractor : ToolExperienceExtractor) (conversation : List Entry)
    (toolName : String) : Extracted :=
  conversation.foldl (extractor.count conversation toolName) {}

/-- `extract` -/
def extract (extractor : ToolExperienceExtractor) (conversation : List Entry)
    (toolName : String) : ToolExperience :=
  let stats := extractor.extracted conversation toolName
  { toolName
    successPatterns := stats.successes
    failurePatterns := stats.failures
    usageCount := stats.success + stats.failure
    successRate :=
      if 0 < stats.success + stats.failure then stats.success / (stats.success + stats.failure)
      else 0 }

theorem count_of_judgement (extractor : ToolExperienceExtractor) (conversation : List Entry)
    (toolName : String) (stats : Extracted) (entry : Entry) :
    (extractor.count conversation toolName stats entry).failure =
        stats.failure + (judgement conversation toolName entry).toList.count true ∧
      (extractor.count conversation toolName stats entry).success =
        stats.success + (judgement conversation toolName entry).toList.count false := by
  unfold count
  cases said : entry.message with
  | tool toolCallId content =>
      cases judgement conversation toolName entry with
      | none => exact ⟨rfl, rfl⟩
      | some failed => cases failed <;> exact ⟨rfl, rfl⟩
  | system content => rw [judgement, said]; exact ⟨rfl, rfl⟩
  | user content => rw [judgement, said]; exact ⟨rfl, rfl⟩
  | assistant content toolCalls => rw [judgement, said]; exact ⟨rfl, rfl⟩

/-- Every message that is judged counts once, as what it is judged to be. -/
theorem extracted_counts (extractor : ToolExperienceExtractor) (conversation : List Entry)
    (toolName : String) :
    (extractor.extracted conversation toolName).failure =
        (conversation.filterMap (judgement conversation toolName)).count true ∧
      (extractor.extracted conversation toolName).success =
        (conversation.filterMap (judgement conversation toolName)).count false := by
  have counted (entries : List Entry) (stats : Extracted) :
      (entries.foldl (extractor.count conversation toolName) stats).failure = stats.failure +
          (entries.filterMap (judgement conversation toolName)).count true ∧
        (entries.foldl (extractor.count conversation toolName) stats).success = stats.success +
          (entries.filterMap (judgement conversation toolName)).count false := by
    induction entries generalizing stats with
    | nil => exact ⟨rfl, rfl⟩
    | cons entry rest ih =>
        obtain ⟨failure, success⟩ := extractor.count_of_judgement conversation toolName stats entry
        rw [List.foldl_cons, (ih _).1, (ih _).2, failure, success, List.filterMap_cons]
        cases judgement conversation toolName entry with
        | none => exact ⟨rfl, rfl⟩
        | some failed => cases failed <;> simp <;> omega
  simpa [extracted] using counted conversation {}

end ToolExperienceExtractor

end YouMi.Knowledge
