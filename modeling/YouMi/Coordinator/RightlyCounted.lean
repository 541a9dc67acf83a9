import YouMi.Mcp.Provider
import YouMi.Coordinator.Promotions

/-!
# How calls over the bridge are counted

The executor writes the text of a tool's result as it is, whether the tool has failed or
not, and the collector judges the text.  Rejections and timeouts are written as JSON
objects with an error and are counted as failures; a result is counted rightly exactly
if its text agrees with what it is.
-/

namespace YouMi.Coordinator

open YouMi.Core YouMi.Library YouMi.Mcp YouMi.Python

/-! ## What is counted for a text -/

/-- The message is counted as a failure, or as a success, and as nothing else. -/
def ToolStats.CountsAs (hashableSlices : Bool) (stats : ToolStats) (isFailed : Bool)
    (content : List Char) : Prop :=
  ∃ after, stats.count hashableSlices content = some after ∧ after.Recordable ∧
    after.failure = stats.failure + (if isFailed then 1 else 0) ∧
    after.success = stats.success + (if isFailed then 0 else 1)

/-- A text is a JSON object with an error, which is a text if there is room to note it. -/
def IsErrorObject (stats : ToolStats) (content : List Char) : Prop :=
  ∃ entries error, Json.loads content = some (.dict entries) ∧
    entries.lookup Json.errorKey = some error ∧
    ((∃ text, error = .str text) ∨ 3 ≤ stats.failures.length)

/-- A text is JSON with an error in it: a key, an item or a part of a string. -/
def MentionsError (content : List Char) : Prop :=
  ∃ data, Json.loads content = some data ∧ errorIn data = some true

/-- A text is a JSON object whose error is a text. -/
def IsErrorText (content : List Char) : Prop :=
  ∃ entries text, Json.loads content = some (.dict entries) ∧
    entries.lookup Json.errorKey = some (.str text)

theorem isFailure_iff {content : List Char} : isFailure content = true ↔ MentionsError content := by
  unfold isFailure MentionsError
  cases read : Json.loads content with
  | none => simp
  | some data =>
      cases mentions : errorIn data with
      | none => simp [mentions]
      | some error => simp [mentions]

namespace ToolStats

variable {hashableSlices : Bool} {stats : ToolStats} {content : List Char}

/-- What is counted as a failure mentions an error, and nothing else does. -/
theorem CountsAs.isFailure_eq {isFailed : Bool}
    (counts : stats.CountsAs hashableSlices isFailed content) : isFailure content = isFailed := by
  obtain ⟨after, done, -, failure, -⟩ := counts
  have counted := (count_counts done).1
  rw [failure] at counted
  cases isFailed with
  | true =>
      by_contra notFailed
      simp [notFailed] at counted
  | false =>
      by_contra isFailed
      simp [isFailed] at counted

theorem countsAs_success_iff (recordable : stats.Recordable) :
    stats.CountsAs hashableSlices false content ↔ isFailure content = false := by
  constructor
  · exact CountsAs.isFailure_eq
  · intro notFailed
    have counted : ∃ after, stats.count hashableSlices content = some after := by
      unfold isFailure at notFailed
      unfold count
      cases read : Json.loads content with
      | none => exact ⟨_, rfl⟩
      | some data =>
          dsimp only
          cases mentions : errorIn data with
          | none => exact ⟨_, rfl⟩
          | some error =>
              cases error with
              | true => simp [read, mentions] at notFailed
              | false => exact ⟨_, rfl⟩
    obtain ⟨after, done⟩ := counted
    obtain ⟨failure, success⟩ := count_counts done
    obtain ⟨success, same⟩ := success notFailed
    refine ⟨after, done, ?_, ?_, success⟩
    · unfold Recordable
      rw [same]
      exact recordable
    · rw [failure, notFailed]

/-- While there is room, the note of an error is a mere failure only if the error is a text. -/
theorem noteError_room_iff {entries : List (List Char × Json)} {error : Json}
    (recordable : stats.Recordable) (found : entries.lookup Json.errorKey = some error)
    (room : stats.failures.length < 3) :
    (∃ after, stats.noteError hashableSlices (.dict entries) = some after ∧ after.Recordable ∧
        after.success = stats.success) ↔
      ∃ text, error = .str text := by
  unfold noteError
  dsimp only
  rw [if_pos room, found]
  constructor
  · rintro ⟨after, done, records, same⟩
    cases error with
    | str text => exact ⟨text, rfl⟩
    | list items =>
        cases done
        exact absurd (records none (by simp)) (by decide)
    | dict inner =>
        dsimp only at done
        split at done
        · cases done
        · cases done
          simp at same
    | null =>
        cases done
        simp at same
    | bool value =>
        cases done
        simp at same
    | number literal =>
        cases done
        simp at same
  · rintro ⟨text, rfl⟩
    refine ⟨_, rfl, ?_, rfl⟩
    intro pattern member
    rcases List.mem_append.mp member with before | now
    · exact recordable pattern before
    · rw [List.mem_singleton.mp now]
      rfl

theorem noteError_full {entries : List (List Char × Json)}
    (full : 3 ≤ stats.failures.length) :
    stats.noteError hashableSlices (.dict entries) = some stats :=
  if_neg (Nat.not_lt.mpr full)

/-- The note of an error is a mere failure if there is no room or the error is a text. -/
theorem noteError_iff {data : Json} (recordable : stats.Recordable)
    (mentions : errorIn data = some true) :
    (∃ after, stats.noteError hashableSlices data = some after ∧ after.Recordable ∧
        after.success = stats.success) ↔
      ∃ entries error, data = .dict entries ∧ entries.lookup Json.errorKey = some error ∧
        ((∃ text, error = .str text) ∨ 3 ≤ stats.failures.length) := by
  cases data with
  | dict entries =>
      obtain ⟨error, found⟩ : ∃ error, entries.lookup Json.errorKey = some error :=
        Option.isSome_iff_exists.mp (Option.some.inj mentions)
      by_cases room : stats.failures.length < 3
      · constructor
        · intro mere
          exact ⟨entries, error, rfl, found,
            .inl ((noteError_room_iff recordable found room).mp mere)⟩
        · rintro ⟨_, error, same, found, isText | full⟩
          · cases same
            exact (noteError_room_iff recordable found room).mpr isText
          · exact absurd full (Nat.not_le.mpr room)
      · have full := Nat.not_lt.mp room
        exact iff_of_true ⟨stats, noteError_full full, recordable, rfl⟩
          ⟨entries, error, rfl, found, .inr full⟩
  | list items => simp [noteError]
  | str text => simp [noteError]
  | null => cases mentions
  | bool value => cases mentions
  | number literal => cases mentions

theorem countsAs_failure_iff (recordable : stats.Recordable) :
    stats.CountsAs hashableSlices true content ↔ IsErrorObject stats content := by
  have noted {data : Json} (read : Json.loads content = some data)
      (mentions : errorIn data = some true) : stats.CountsAs hashableSlices true content ↔
        ∃ entries error, data = .dict entries ∧ entries.lookup Json.errorKey = some error ∧
          ((∃ text, error = .str text) ∨ 3 ≤ stats.failures.length) := by
    have same : stats.count hashableSlices content =
        ({ stats with failure := stats.failure + 1 } : ToolStats).noteError hashableSlices
          data := by
      unfold count
      rw [read]
      dsimp only
      rw [mentions]
    have shape : (∃ after,
        ({ stats with failure := stats.failure + 1 } : ToolStats).noteError hashableSlices data =
            some after ∧ after.Recordable ∧ after.success = stats.success) ↔ _ :=
      noteError_iff recordable mentions
    refine Iff.trans ?_ shape
    unfold CountsAs
    rw [same]
    constructor
    · rintro ⟨after, done, records, -, success⟩
      exact ⟨after, done, records, success⟩
    · rintro ⟨after, done, records, success⟩
      exact ⟨after, done, records, (noteError_counts done).1, success⟩
  constructor
  · intro counts
    obtain ⟨data, read, mentions⟩ := isFailure_iff.mp counts.isFailure_eq
    obtain ⟨entries, found, rfl, lookup, shape⟩ := (noted read mentions).mp counts
    exact ⟨entries, found, read, lookup, shape⟩
  · rintro ⟨entries, error, read, found, shape⟩
    have mentions : errorIn (.dict entries) = some true := by
      change some (entries.lookup Json.errorKey).isSome = some true
      rw [found]
      rfl
    exact (noted read mentions).mpr ⟨entries, error, rfl, found, shape⟩

/-- What the executor writes of an error is counted as a failure. -/
theorem countsAs_dumpsError (recordable : stats.Recordable) (ensureAscii : Bool)
    (text : List Char) :
    stats.CountsAs hashableSlices true (Json.dumpsError ensureAscii text) :=
  (countsAs_failure_iff recordable).mpr
    ⟨_, _, Json.loads_dumpsError ensureAscii text, rfl, .inl ⟨text, rfl⟩⟩

/-- A text is a mere failure in all statistics if it is one in those without patterns. -/
theorem countsAs_iff {isFailed : Bool} :
    (∀ hashableSlices (stats : ToolStats), stats.Recordable →
        stats.CountsAs hashableSlices isFailed content) ↔
      if isFailed then IsErrorText content else ¬MentionsError content := by
  have fresh : ({} : ToolStats).Recordable := nofun
  cases isFailed with
  | true =>
      constructor
      · intro counts
        obtain ⟨entries, error, read, found, ⟨text, rfl⟩ | full⟩ :=
          (countsAs_failure_iff fresh).mp (counts true {} fresh)
        · exact ⟨entries, text, read, found⟩
        · exact absurd full (by decide)
      · rintro ⟨entries, text, read, found⟩ hashableSlices stats recordable
        exact (countsAs_failure_iff recordable).mpr
          ⟨entries, .str text, read, found, .inl ⟨text, rfl⟩⟩
  | false =>
      constructor
      · intro counts mentions
        have notFailed := (counts true {} fresh).isFailure_eq
        rw [isFailure_iff.mpr mentions] at notFailed
        cases notFailed
      · intro silent hashableSlices stats recordable
        refine (countsAs_success_iff recordable).mpr (Bool.eq_false_iff.mpr fun isFailed => ?_)
        exact silent (isFailure_iff.mp isFailed)

end ToolStats

/-- A tool that has failed is not promoted. -/
theorem PostTaskPipeline.Handled.promoted_eq_none {exp : ToolExperience} {before after : Nat}
    {promoted : Option Nat} (handled : PostTaskPipeline.Handled exp before after promoted)
    (some : exp.failureCount ≠ 0) : promoted = none := by
  cases handled with
  | failed => rfl
  | counted => rfl
  | promoted none => exact absurd none some

/-! ## The messages of a call -/

/-- A call over the bridge, with what the bridge gives and what else the call meets. -/
structure BridgeCall where
  name : String
  toolCallId : String
  callTool : Except Fault MCPToolResult
  use : ToolUse

namespace BridgeCall

/-- The messages that the call adds to the conversation. -/
def messages (call : BridgeCall) : List Message :=
  (executeToolCall [] call.name call.toolCallId { call.use with route := .bridge call.callTool }).1

/-- No hook blocks the call, and its circuit is closed. -/
def GoesThrough (call : BridgeCall) : Prop :=
  (∃ decision, call.use.beforeToolCall = .ok decision ∧ ∀ reason, decision ≠ .block reason) ∧
    call.use.circuitOpen = none

/-- A text is the answer of the tool, and a failure if the bridge says so; an error is a
rejection or a timeout. -/
def hasFailed (call : BridgeCall) : ToolContent → Bool
  | .error _ _ => true
  | .text _ =>
      match call.callTool with
      | .ok result => result.isError
      | .error _ => true

/-- The text that the call writes: that of the result, if there is one. -/
def answer (call : BridgeCall) : List Message :=
  match call.callTool with
  | .ok result => [.tool call.toolCallId (.text result.text)]
  | .error _ => []

/-- The call as the executor gets it. -/
def overBridge (call : BridgeCall) : ToolUse := { call.use with route := .bridge call.callTool }

theorem dispatchTool_eq (call : BridgeCall) :
    (dispatchTool [] call.name call.toolCallId call.overBridge).1 = call.answer := by
  unfold dispatchTool answer overBridge
  dsimp only
  cases call.callTool with
  | error fault => rfl
  | ok result =>
      dsimp only
      split
      · split <;> rfl
      · split <;> rfl

/-- A call that is let through writes its answer, and after it an error if its time is up. -/
theorem doExecuteTool_eq (call : BridgeCall) (closed : call.use.circuitOpen = none) :
    ∃ errors, (doExecuteTool [] call.name call.toolCallId call.overBridge).1 =
        call.answer ++ errors ∧
      ∀ message ∈ errors, ∃ text, message = .tool call.toolCallId (.error false text) := by
  have dispatched := dispatchTool_eq call
  unfold doExecuteTool
  rw [show call.overBridge.circuitOpen = none from closed]
  generalize dispatchTool [] call.name call.toolCallId call.overBridge = outcome at dispatched ⊢
  obtain ⟨conversation, result⟩ := outcome
  dsimp only at dispatched
  subst dispatched
  have nothing : ∀ message ∈ ([] : List Message), ∃ text,
      message = .tool call.toolCallId (.error false text) :=
    fun _ member => absurd member List.not_mem_nil
  cases result with
  | ok action => exact ⟨[], (List.append_nil _).symm, nothing⟩
  | error fault =>
      dsimp only
      split
      · refine ⟨[.tool call.toolCallId (.error false ("工具 '" ++ call.name ++ "' 执行超时（>" ++
            call.overBridge.printedTimeout ++ "s）"))], ?_,
          fun message member => ⟨_, List.mem_singleton.mp member⟩⟩
        unfold failTool
        dsimp only
        split <;> rfl
      · exact ⟨[], (List.append_nil _).symm, nothing⟩

/-- The executor's messages stand, whatever the hooks do after the call. -/
theorem messages_of_passed {call : BridgeCall} {decision : HookDecision}
    (asked : call.use.beforeToolCall = .ok decision)
    (notBlocked : ∀ reason, decision ≠ .block reason) :
    call.messages = (doExecuteTool [] call.name call.toolCallId call.overBridge).1 := by
  change (executeToolCall [] call.name call.toolCallId call.overBridge).1 = _
  unfold executeToolCall
  rw [show call.overBridge.beforeToolCall = .ok decision from asked]
  cases decision with
  | block reason => exact absurd rfl (notBlocked reason)
  | pass | modify =>
      dsimp only
      generalize doExecuteTool [] call.name call.toolCallId call.overBridge = outcome
      obtain ⟨conversation, fault | action⟩ := outcome
      · rfl
      · dsimp only
        split <;> rfl

/-- The call is blocked, or its hook raises. -/
theorem messages_of_stopped {call : BridgeCall}
    (stopped : ∀ decision, call.use.beforeToolCall = .ok decision →
      ∃ reason, decision = .block reason) : call.messages = [] := by
  change (executeToolCall [] call.name call.toolCallId call.overBridge).1 = _
  unfold executeToolCall
  cases asked : call.overBridge.beforeToolCall with
  | error fault => rfl
  | ok decision =>
      obtain ⟨reason, rfl⟩ := stopped decision asked
      rfl

/-- The messages of a call: its answer, if it goes through, and errors of the executor. -/
theorem messages_eq (call : BridgeCall) :
    ∃ errors, (∀ message ∈ errors, ∃ text,
        message = .tool call.toolCallId (.error false text)) ∧
      (call.GoesThrough ∧ call.messages = call.answer ++ errors ∨
        ¬call.GoesThrough ∧ call.messages = errors) := by
  by_cases passed : ∃ decision, call.use.beforeToolCall = .ok decision ∧
      ∀ reason, decision ≠ .block reason
  · obtain ⟨decision, asked, notBlocked⟩ := passed
    have same := messages_of_passed asked notBlocked
    cases circuit : call.use.circuitOpen with
    | none =>
        obtain ⟨errors, executed, areErrors⟩ := doExecuteTool_eq call circuit
        exact ⟨errors, areErrors,
          .inl ⟨⟨⟨decision, asked, notBlocked⟩, circuit⟩, same.trans executed⟩⟩
    | some error =>
        refine ⟨[.tool call.toolCallId (.error false error)],
          fun message member => ⟨error, List.mem_singleton.mp member⟩, .inr ⟨?_, ?_⟩⟩
        · rintro ⟨-, closed⟩
          rw [closed] at circuit
          cases circuit
        · rw [same]
          unfold doExecuteTool
          rw [show call.overBridge.circuitOpen = some error from circuit]
          rfl
  · refine ⟨[], nofun, .inr ⟨fun through => passed through.1, messages_of_stopped ?_⟩⟩
    intro decision asked
    by_contra notBlocked
    exact passed ⟨decision, asked, fun reason same => notBlocked ⟨reason, same⟩⟩

/-- A failed message counts as a failure and another as a success, whatever has been counted. -/
def Classified (call : BridgeCall) : Prop :=
  ∀ content, .tool call.toolCallId content ∈ call.messages →
    ∀ hashableSlices (stats : ToolStats), stats.Recordable →
      stats.CountsAs hashableSlices (call.hasFailed content) (written content)

/-- No run of a pipeline promotes a tool of whose calls it reads a failed message. -/
def PromotesNothing (call : BridgeCall) : Prop :=
  ∀ content, .tool call.toolCallId content ∈ call.messages → call.hasFailed content = true →
    ∀ (s : PostTaskPipeline) (use : PipelineUse) (conversations : List (List Entry)),
      ∀ reading ∈ conversations.flatMap readings, reading.content = written content →
        ∀ handling ∈ (s.run use conversations).handlings,
          handling.toolName = reading.toolName → handling.promoted = none

/-- A result that is written has a text which agrees with it: the error of a failed one is a text
in a JSON object, and that of a successful one is not JSON with an error in it. -/
def Agrees (call : BridgeCall) : Prop :=
  call.GoesThrough → ∀ result, call.callTool = .ok result →
    if result.isError then IsErrorText result.text.toList else ¬MentionsError result.text.toList

theorem promotesNothing_of_classified {call : BridgeCall} (classified : call.Classified) :
    call.PromotesNothing := by
  intro content member hasFailed s use conversations reading read same handling handled isTool
  have isFailed : isFailure reading.content = true := by
    rw [same, ← hasFailed]
    exact (classified content member true {} nofun).isFailure_eq
  have worked : handling ∈ PostTaskPipeline.workOn reading.toolName
      (s.run use conversations).handlings := List.mem_filter.mpr ⟨handled, by simpa using isTool⟩
  rcases PostTaskPipeline.run_worksOn use s conversations reading.toolName with
    ⟨nothing, -⟩ | ⟨exp, experienced, isExp, promoted, work, handledAs⟩
  · rw [nothing] at worked
    cases worked
  · rw [work] at worked
    rw [List.mem_singleton.mp worked]
    have inFailed : reading ∈ failed (ofTool exp.toolName (conversations.flatMap readings)) :=
      List.mem_filter.mpr ⟨List.mem_filter.mpr ⟨read, by simpa using isExp.symm⟩, isFailed⟩
    have some : exp.failureCount ≠ 0 := by
      rw [experienced.failures]
      exact (List.length_pos_of_mem inFailed).ne'
    exact handledAs.promoted_eq_none some

end BridgeCall

/-! ## Texts of failures -/

/-- No failure of a provider is JSON. -/
theorem loads_failure_eq_none {provider : LocalFunctionProvider} {toolName : String}
    {arguments : Dict} {result : MCPToolResult}
    (executed : provider.execute toolName arguments = .ok result)
    (isError : result.isError = true) : Json.loads result.text.toList = none := by
  have begins (first rest : String) (head : first.toList.head? = some '工') :
      Json.loads (first ++ rest).toList = none := by
    obtain ⟨tail, same⟩ := List.head?_eq_some_iff.mp head
    rw [String.toList_append, same]
    rfl
  unfold LocalFunctionProvider.execute at executed
  split at executed
  · cases executed
    unfold Mcp.failure
    rw [String.append_assoc, String.append_assoc, String.append_assoc]
    exact begins "工具 '" _ (by decide)
  · split at executed
    · cases executed
      cases isError
    · split at executed
      · cases executed
        exact begins "工具执行异常: " _ (by decide)
      · cases executed

namespace BridgeCall

/-- A failure of a provider never agrees with its text. -/
theorem not_agrees_of_failure {call : BridgeCall} {provider : LocalFunctionProvider}
    {arguments : Dict} {result : MCPToolResult} (through : call.GoesThrough)
    (executed : provider.execute call.name arguments = .ok result)
    (isError : result.isError = true) (called : call.callTool = .ok result) : ¬call.Agrees := by
  intro agrees
  have isErrorText := agrees through result called
  rw [if_pos isError] at isErrorText
  obtain ⟨entries, text, read, -⟩ := isErrorText
  rw [loads_failure_eq_none executed isError] at read
  cases read

/-- A call of a tool that throws, with nothing in its way. -/
def throwing : BridgeCall where
  name := "t"
  toolCallId := "call"
  callTool := (LocalFunctionProvider.create.register
    { ToolStore.plainDefinition "" with name := "t" }
    fun _ => .error (.exception "boom")).execute "t" []
  use :=
    { beforeToolCall := .ok .pass, circuitOpen := none, route := .registry [] (.ok ""),
      memory := .ok (), report := .ok (), printedTimeout := "30", timeoutReport := .ok (),
      afterToolCall := .ok .pass }

end BridgeCall

end YouMi.Coordinator
