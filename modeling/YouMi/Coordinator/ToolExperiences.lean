import Mathlib.Data.Rat.Floor
import Mathlib.Algebra.Order.Round
import Mathlib.Tactic.FieldSimp
import YouMi.Core.ToolExecutor
import YouMi.Coordinator.ToolApproval
import YouMi.Python.JsonText

/-!
# Collecting experiences with tools

`collect_tool_experiences` reads the tool messages of all sub-agents: a text that is JSON
with an error in it is a failure, any other text a success.  What raises inside the
reading of one message is caught if it is a `TypeError`, after a failure has been
counted, and then counts as a success as well.  Rates of success are exact; the source
rounds them to floating point numbers, which does not change a count.
-/

namespace YouMi.Coordinator

open YouMi.Core YouMi.Library YouMi.Python

/-- The text of a tool message. -/
def written : ToolContent → List Char
  | .text text => text.toList
  | .error ensureAscii text => Json.dumpsError ensureAscii text.toList

/-- An entry of a conversation.  `number` tells apart messages that say the same; nothing
reads it. -/
structure Entry where
  number : Nat
  message : Message
  deriving DecidableEq

/-- `_extract_tool_name`: the name in the last request with the id. -/
def extractToolName (conversation : List Entry) (toolCallId : String) : String :=
  (conversation.reverse.findSome? fun entry =>
    match entry.message with
    | .assistant _ toolCalls =>
        (toolCalls.find? fun call => call.id = toolCallId).map ToolCall.name
    | _ => none).getD ""

/-- A tool message whose tool is known. -/
structure Reading where
  number : Nat
  toolName : String
  content : List Char
  deriving DecidableEq

/-- The tool messages of a conversation whose tools are known. -/
def readings (conversation : List Entry) : List Reading :=
  conversation.filterMap fun entry =>
    match entry.message with
    | .tool toolCallId content =>
        let toolName := extractToolName conversation toolCallId
        if toolName = "" then none else some ⟨entry.number, toolName, written content⟩
    | _ => none

/-- `"error" in data`; `none` where it raises a `TypeError`. -/
def errorIn : Json → Option Bool
  | .dict entries => some (entries.lookup Json.errorKey).isSome
  | .list items => some (items.any fun item =>
      match item with
      | .str text => text = Json.errorKey
      | _ => false)
  | .str text => some (contains text Json.errorKey)
  | _ => none

/-- A message that is counted as a failure. -/
def isFailure (content : List Char) : Bool :=
  ((Json.loads content).bind errorIn).getD false

/-- The statistics of one tool.  A pattern is `none` where it is a list and not a text. -/
structure ToolStats where
  success : Nat := 0
  failure : Nat := 0
  failures : List (Option (List Char)) := []
  successes : List (List Char) := []

/-- `data["error"]` and its slice are noted, if there is room for it; `none` where a `KeyError`
passes through, and a caught `TypeError` counts as a success. -/
def ToolStats.noteError (hashableSlices : Bool) (stats : ToolStats) (data : Json) :
    Option ToolStats :=
  match data with
  | .dict entries =>
      if stats.failures.length < 3 then
        match entries.lookup Json.errorKey with
        | some (.str text) =>
            some { stats with failures := stats.failures ++ [some (text.take 200)] }
        | some (.list _) => some { stats with failures := stats.failures ++ [none] }
        -- A slice is a key since Python 3.12, and a `TypeError` before.
        | some (.dict _) =>
            if hashableSlices then none else some { stats with success := stats.success + 1 }
        | _ => some { stats with success := stats.success + 1 }
      else some stats
  | _ => some { stats with success := stats.success + 1 }

/-- One message; `none` where an exception leaves the loop. -/
def ToolStats.count (hashableSlices : Bool) (stats : ToolStats) (content : List Char) :
    Option ToolStats :=
  match Json.loads content with
  | none => some { stats with success := stats.success + 1 }
  | some data =>
      match errorIn data with
      | none => some { stats with success := stats.success + 1 }
      | some true => { stats with failure := stats.failure + 1 }.noteError hashableSlices data
      | some false =>
          some { stats with
            success := stats.success + 1
            successes := if stats.successes.length < 3 then
              stats.successes ++ [content.take 100] else stats.successes }

structure ToolExperience where
  toolName : String
  successPatterns : List (List Char) := []
  failurePatterns : List (List Char) := []
  usageCount : Nat := 0
  successRate : Rat := 0

/-- The patterns are texts, as the experience demands. -/
def ToolStats.Recordable (stats : ToolStats) : Prop := ∀ pattern ∈ stats.failures, pattern.isSome

instance (stats : ToolStats) : Decidable stats.Recordable :=
  inferInstanceAs (Decidable (∀ pattern ∈ stats.failures, _))

def ToolStats.toExperience (toolName : String) (stats : ToolStats) : ToolExperience where
  toolName := toolName
  successPatterns := stats.successes
  failurePatterns := stats.failures.filterMap id
  usageCount := stats.success + stats.failure
  successRate :=
    if 0 < stats.success + stats.failure then stats.success / (stats.success + stats.failure) else 0

/-- The statistics after one reading. -/
def countReading (hashableSlices : Bool) (stats : OrderedDict String ToolStats)
    (reading : Reading) : Option (OrderedDict String ToolStats) :=
  (((stats.lookup reading.toolName).getD {}).count hashableSlices reading.content).map
    fun counted => stats.assign reading.toolName counted

def toolStats (hashableSlices : Bool) :
    OrderedDict String ToolStats → List Reading → Option (OrderedDict String ToolStats)
  | stats, [] => some stats
  | stats, reading :: rest =>
      (countReading hashableSlices stats reading).bind fun stats =>
        toolStats hashableSlices stats rest

/-- `collect_tool_experiences`; `none` where it raises. -/
def collectToolExperiences (hashableSlices : Bool) (conversations : List (List Entry)) :
    Option (List ToolExperience) :=
  (toolStats hashableSlices [] (conversations.flatMap readings)).bind fun stats =>
    if ∀ entry ∈ stats, entry.2.Recordable then
      some (stats.map fun entry => entry.2.toExperience entry.1)
    else none

/-- `int(round(usage_count * (1 - success_rate)))`. -/
def ToolExperience.failureCount (exp : ToolExperience) : Nat :=
  (round ((exp.usageCount : Rat) * (1 - exp.successRate))).toNat

/-! ## What is counted -/

namespace ToolStats

variable {hashableSlices : Bool} {stats after : ToolStats} {content : List Char}

theorem noteError_counts {data : Json} (done : stats.noteError hashableSlices data = some after) :
    after.failure = stats.failure ∧ stats.success ≤ after.success := by
  unfold noteError at done
  split at done
  · split at done
    · split at done
      · cases done
        exact ⟨rfl, le_rfl⟩
      · cases done
        exact ⟨rfl, le_rfl⟩
      · split at done
        · cases done
        · cases done
          exact ⟨rfl, Nat.le_succ _⟩
      · cases done
        exact ⟨rfl, Nat.le_succ _⟩
    · cases done
      exact ⟨rfl, le_rfl⟩
  · cases done
    exact ⟨rfl, Nat.le_succ _⟩

/-- A failure is counted once; another message is counted once as a success and as nothing else. -/
theorem count_counts (done : stats.count hashableSlices content = some after) :
    after.failure = stats.failure + (if isFailure content then 1 else 0) ∧
      (isFailure content = false →
        after.success = stats.success + 1 ∧ after.failures = stats.failures) := by
  unfold count at done
  unfold isFailure
  cases read : Json.loads content with
  | none =>
      rw [read] at done
      cases done
      exact ⟨rfl, fun _ => ⟨rfl, rfl⟩⟩
  | some data =>
      rw [read] at done
      dsimp only at done
      cases mentions : errorIn data with
      | none =>
          rw [mentions] at done
          cases done
          exact ⟨by simp [mentions], fun _ => ⟨rfl, rfl⟩⟩
      | some error =>
          rw [mentions] at done
          cases error with
          | true =>
              have counts := noteError_counts done
              exact ⟨by simpa [mentions] using counts.1, fun absent => by simp [mentions] at absent⟩
          | false =>
              cases done
              exact ⟨by simp [mentions], fun _ => ⟨rfl, rfl⟩⟩

/-- The failures of the experience are those that were counted. -/
theorem failureCount_toExperience (toolName : String) (stats : ToolStats) :
    (stats.toExperience toolName).failureCount = stats.failure := by
  have exact : ((stats.toExperience toolName).usageCount : Rat) *
      (1 - (stats.toExperience toolName).successRate) = stats.failure := by
    unfold toExperience
    dsimp only
    split
    · rename_i used
      have nonzero : ((stats.success : Rat) + stats.failure) ≠ 0 := by
        exact_mod_cast used.ne'
      push_cast
      field_simp
      ring
    · rename_i unused
      have none : stats.success = 0 ∧ stats.failure = 0 := by omega
      rw [none.1, none.2]
      norm_num
  unfold ToolExperience.failureCount
  rw [exact, round_natCast]
  rfl

end ToolStats

section Collect

variable {hashableSlices : Bool} {given : List Reading} {stats after : OrderedDict String ToolStats}

/-- The readings of a tool. -/
def ofTool (toolName : String) (given : List Reading) : List Reading :=
  given.filter fun reading => reading.toolName = toolName

/-- The failed ones among them. -/
def failed (given : List Reading) : List Reading :=
  given.filter fun reading => isFailure reading.content

theorem ofTool_cons_self (reading : Reading) (rest : List Reading) :
    ofTool reading.toolName (reading :: rest) = reading :: ofTool reading.toolName rest :=
  List.filter_cons_of_pos (by simp)

theorem ofTool_cons_ne {toolName : String} {reading : Reading} (rest : List Reading)
    (other : reading.toolName ≠ toolName) :
    ofTool toolName (reading :: rest) = ofTool toolName rest :=
  List.filter_cons_of_neg (by simpa using other)

/-- What the statistics of a tool count of its readings. -/
structure Counted (before after : ToolStats) (given : List Reading) : Prop where
  failure : after.failure = before.failure + (failed given).length
  success : failed given = [] → after.success = before.success + given.length

theorem Counted.cons {before middle after : ToolStats} {reading : Reading} {rest : List Reading}
    (first : before.count hashableSlices reading.content = some middle)
    (later : Counted middle after rest) : Counted before after (reading :: rest) := by
  obtain ⟨failure, success⟩ := ToolStats.count_counts first
  cases isFailed : isFailure reading.content with
  | true =>
      have more : failed (reading :: rest) = reading :: failed rest :=
        List.filter_cons_of_pos isFailed
      refine ⟨?_, fun none => ?_⟩
      · rw [more, later.failure, failure, isFailed, List.length_cons]
        simp only [if_true]
        omega
      · rw [more] at none
        cases none
  | false =>
      have same : failed (reading :: rest) = failed rest :=
        List.filter_cons_of_neg (by simp [isFailed])
      refine ⟨?_, fun none => ?_⟩
      · rw [same, later.failure, failure, isFailed]
        simp
      · rw [same] at none
        rw [later.success none, (success isFailed).1, List.length_cons]
        omega

theorem countReading_lookup {reading : Reading} (toolName : String)
    (done : countReading hashableSlices stats reading = some after) :
    (reading.toolName = toolName → ((stats.lookup toolName).getD {}).count hashableSlices
      reading.content = some ((after.lookup toolName).getD {})) ∧
    (reading.toolName ≠ toolName → after.lookup toolName = stats.lookup toolName) := by
  obtain ⟨counted, first, rfl⟩ := Option.map_eq_some_iff.mp done
  constructor
  · rintro rfl
    rw [OrderedDict.lookup_assign_self]
    exact first
  · intro other
    exact OrderedDict.lookup_assign_ne (Ne.symm other)

/-- The statistics of every tool count its readings. -/
theorem toolStats_counted (toolName : String)
    (done : toolStats hashableSlices stats given = some after) :
    Counted ((stats.lookup toolName).getD {}) ((after.lookup toolName).getD {})
      (ofTool toolName given) := by
  induction given generalizing stats with
  | nil =>
      cases done
      exact ⟨rfl, fun _ => rfl⟩
  | cons reading rest ih =>
      obtain ⟨middle, first, later⟩ := Option.bind_eq_some_iff.mp done
      obtain ⟨here, elsewhere⟩ := countReading_lookup toolName first
      by_cases same : reading.toolName = toolName
      · rw [← same, ofTool_cons_self, same]
        exact .cons (here same) (ih later)
      · rw [ofTool_cons_ne rest same, ← elsewhere same]
        exact ih later

theorem toolStats_keys (done : toolStats hashableSlices stats given = some after) :
    (stats.keys.Nodup → after.keys.Nodup) ∧
      ∀ toolName, toolName ∈ after.keys ↔ toolName ∈ stats.keys ∨ ofTool toolName given ≠ [] := by
  induction given generalizing stats with
  | nil =>
      cases done
      exact ⟨id, fun toolName => by simp [ofTool]⟩
  | cons reading rest ih =>
      obtain ⟨middle, first, later⟩ := Option.bind_eq_some_iff.mp done
      obtain ⟨distinct, keys⟩ := ih later
      obtain ⟨counted, _, rfl⟩ := Option.map_eq_some_iff.mp first
      refine ⟨fun before => distinct (OrderedDict.nodup_keys_assign before), fun toolName => ?_⟩
      rw [keys, OrderedDict.mem_keys_assign]
      by_cases same : toolName = reading.toolName
      · subst same
        rw [ofTool_cons_self]
        simp
      · rw [ofTool_cons_ne rest (Ne.symm same)]
        simp [same]

/-- What an experience says of the readings of its tool. -/
structure Experienced (exp : ToolExperience) (given : List Reading) : Prop where
  used : ofTool exp.toolName given ≠ []
  failures : exp.failureCount = (failed (ofTool exp.toolName given)).length
  uses : failed (ofTool exp.toolName given) = [] →
    exp.usageCount = (ofTool exp.toolName given).length

/-- Each tool with readings has one experience, which counts them. -/
theorem collect_spec {conversations : List (List Entry)} {experiences : List ToolExperience}
    (done : collectToolExperiences hashableSlices conversations = some experiences) :
    (experiences.map ToolExperience.toolName).Nodup ∧
      ∀ exp ∈ experiences, Experienced exp (conversations.flatMap readings) := by
  obtain ⟨stats, counted, built⟩ := Option.bind_eq_some_iff.mp done
  split at built
  · cases built
    obtain ⟨distinct, keys⟩ := toolStats_keys counted
    have distinct := distinct List.nodup_nil
    constructor
    · rw [List.map_map]
      exact distinct
    · intro exp member
      obtain ⟨⟨toolName, stat⟩, stored, rfl⟩ := List.mem_map.mp member
      have found := OrderedDict.lookup_eq_some_of_mem distinct stored
      have counts := toolStats_counted toolName counted
      rw [found] at counts
      have isKey : toolName ∈ stats.keys := List.mem_map_of_mem (f := Prod.fst) stored
      have failure : stat.failure =
          (failed (ofTool toolName (conversations.flatMap readings))).length := by
        simpa using counts.failure
      refine ⟨((keys toolName).mp isKey).resolve_left List.not_mem_nil, ?_, fun none => ?_⟩
      · rw [ToolStats.failureCount_toExperience, failure]
        rfl
      · change failed (ofTool toolName (conversations.flatMap readings)) = [] at none
        have success : stat.success =
            (ofTool toolName (conversations.flatMap readings)).length := by
          simpa using counts.success none
        rw [none] at failure
        change stat.success + stat.failure = _
        rw [success, failure]
        rfl
  · cases built

end Collect

end YouMi.Coordinator
