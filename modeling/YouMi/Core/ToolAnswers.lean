import YouMi.Core.ToolExecutor

/-!
# How often a tool call is answered

An execution appends tool messages for its own call id only.  Most append one.
`ToolUse.Unheard` and `ToolUse.Repeated` name the dispatches that append none,
or more than one, and `act_answers` counts the messages of a whole execution.
-/

namespace YouMi.Core

open YouMi.Library

/-- The conversation goes on by so many tool messages for the call id. -/
def AppendsAnswers (toolCallId : String) (count : Nat) (before after : List Message) : Prop :=
  ∃ contents : List ToolContent,
    contents.length = count ∧ after = before ++ contents.map (Message.tool toolCallId)

theorem appendsAnswers_zero (toolCallId : String) (conversation : List Message) :
    AppendsAnswers toolCallId 0 conversation conversation :=
  ⟨[], rfl, (List.append_nil conversation).symm⟩

theorem appendsAnswers_one (toolCallId : String) (conversation : List Message)
    (content : ToolContent) :
    AppendsAnswers toolCallId 1 conversation (conversation ++ [.tool toolCallId content]) :=
  ⟨[content], rfl, rfl⟩

theorem AppendsAnswers.trans {toolCallId : String} {first second : Nat}
    {start middle final : List Message} (before : AppendsAnswers toolCallId first start middle)
    (after : AppendsAnswers toolCallId second middle final) :
    AppendsAnswers toolCallId (first + second) start final := by
  obtain ⟨contents, rfl, rfl⟩ := before
  obtain ⟨others, rfl, rfl⟩ := after
  refine ⟨contents ++ others, List.length_append, ?_⟩
  rw [List.map_append, List.append_assoc]

/-- One message more when the call ended in a timeout. -/
def lateness {α : Type} : Except Fault α → Nat
  | .ok _ => 0
  | .error fault => fault.timesOut.toNat

/-- The report was still under way when the time was up. -/
def ReportLate (use : ToolUse) : Prop := use.report = .error (.cancelled true)

instance (use : ToolUse) : Decidable (ReportLate use) :=
  inferInstanceAs (Decidable (_ = _))

namespace ToolUse

/-- The dispatch ends without a tool message, and in time. -/
def Unheard (name : String) (use : ToolUse) : Prop :=
  match use.route with
  | .bridge (.ok _) => False
  | .bridge (.error fault) => fault.timesOut = false
  | .registry toolNames execute => name ∈ toolNames ∧ execute = .error (.cancelled false)

/-- Something goes wrong after the dispatch appended its tool message. -/
def Repeated (name : String) (use : ToolUse) : Prop :=
  match use.route with
  | .bridge (.error _) => False
  | .bridge (.ok result) =>
      if result.isError then ReportLate use
      else ∃ fault, use.memory = .error fault ∧ fault.timesOut = true
  | .registry toolNames (.ok _) =>
      if name ∈ toolNames then ∃ fault, use.memory = .error fault ∧ fault ≠ .cancelled false
      else ReportLate use
  | .registry toolNames (.error fault) =>
      (name ∈ toolNames → fault.isException = true) ∧ ReportLate use

/-- The call gets no tool message: it is blocked by a hook, or unheard. -/
def Unanswered (name : String) (use : ToolUse) : Prop :=
  match use.beforeToolCall with
  | .error _ | .ok (.block _) => True
  | .ok _ => use.circuitOpen = none ∧ use.Unheard name

/-- The call gets more than one tool message. -/
def AnsweredAgain (name : String) (use : ToolUse) : Prop :=
  match use.beforeToolCall with
  | .error _ | .ok (.block _) => False
  | .ok _ => use.circuitOpen = none ∧ use.Repeated name

end ToolUse

theorem lateness_autoReport_iff (use : ToolUse) :
    1 ≤ lateness (autoReportToolError use.report) ↔ ReportLate use := by
  unfold ReportLate
  cases use.report with
  | ok done => exact iff_of_false (Nat.not_succ_le_zero 0) nofun
  | error fault => cases fault with
    | exception text => exact iff_of_false (Nat.not_succ_le_zero 0) nofun
    | timeoutError text => exact iff_of_false (Nat.not_succ_le_zero 0) nofun
    | cancelled timer => cases timer with
      | false => exact iff_of_false (Nat.not_succ_le_zero 0) nofun
      | true => exact iff_of_true (Nat.le_refl 1) rfl

theorem failTool_appends (conversation : List Message) (toolCallId : String) (ascii : Bool)
    (errorMsg : String) (report : Except Fault Unit) :
    AppendsAnswers toolCallId 1 conversation
        (failTool conversation toolCallId ascii errorMsg report).1 ∧
      lateness (failTool conversation toolCallId ascii errorMsg report).2 =
        lateness (autoReportToolError report) := by
  unfold failTool
  cases autoReportToolError report with
  | ok done => exact ⟨appendsAnswers_one toolCallId conversation _, rfl⟩
  | error fault => exact ⟨appendsAnswers_one toolCallId conversation _, rfl⟩

/-- A number of messages is none exactly in one case, and several exactly in another. -/
structure Counts (never again : Prop) (count : Nat) : Prop where
  none : count = 0 ↔ never
  several : 1 < count ↔ again

theorem Counts.one {never again : Prop} {count : Nat} (counts : Counts never again count) :
    count = 1 ↔ ¬ never ∧ ¬ again := by
  rw [← counts.none, ← counts.several]
  omega

/-- After one message it depends on what comes on top of it. -/
theorem counts_one_add {again : Prop} {extra : Nat} (extraIff : 1 ≤ extra ↔ again) :
    Counts False again (1 + extra) := by
  refine ⟨iff_of_false (by omega) id, ?_⟩
  rw [← extraIff]
  omega

/-- What a dispatch leaves behind: so many messages, and a time limit met or not. -/
def Ends (toolCallId : String) (start : List Message)
    (out : List Message × Except Fault ActionResult) (never again : Prop) : Prop :=
  ∃ count, AppendsAnswers toolCallId count start out.1 ∧
    Counts never again (count + lateness out.2)

theorem failTool_ends (conversation : List Message) (toolCallId : String) (ascii : Bool)
    (errorMsg : String) (use : ToolUse) :
    Ends toolCallId conversation
      (failTool conversation toolCallId ascii errorMsg use.report) False (ReportLate use) := by
  obtain ⟨appended, late⟩ := failTool_appends conversation toolCallId ascii errorMsg use.report
  refine ⟨1, appended, ?_⟩
  rw [late]
  exact counts_one_add (lateness_autoReport_iff use)

theorem catchExecution_of_isException {fault : Fault} (caught : fault.isException = true)
    (conversation : List Message) (name toolCallId : String) (report : Except Fault Unit) :
    catchExecution conversation name toolCallId fault report =
      failTool conversation toolCallId true
        ("工具 '" ++ name ++ "' 执行失败: " ++ fault.text) report :=
  if_pos caught

theorem catchExecution_of_cancelled (timer : Bool) (conversation : List Message)
    (name toolCallId : String) (report : Except Fault Unit) :
    catchExecution conversation name toolCallId (.cancelled timer) report =
      (conversation, .error (.cancelled timer)) :=
  if_neg Bool.false_ne_true

theorem catchExecution_ends (conversation : List Message) (name toolCallId : String)
    (fault : Fault) (use : ToolUse) :
    Ends toolCallId conversation
      (catchExecution conversation name toolCallId fault use.report)
      (fault = .cancelled false) (fault.isException = true ∧ ReportLate use) := by
  have caughtEnds : fault.isException = true →
      Ends toolCallId conversation
        (catchExecution conversation name toolCallId fault use.report) False
        (ReportLate use) := by
    intro caught
    rw [catchExecution_of_isException caught]
    exact failTool_ends conversation toolCallId _ _ use
  cases fault with
  | exception text =>
      obtain ⟨count, appended, counts⟩ := caughtEnds rfl
      exact ⟨count, appended, counts.none.trans (iff_of_false id nofun),
        counts.several.trans (and_iff_right rfl).symm⟩
  | timeoutError text =>
      obtain ⟨count, appended, counts⟩ := caughtEnds rfl
      exact ⟨count, appended, counts.none.trans (iff_of_false id nofun),
        counts.several.trans (and_iff_right rfl).symm⟩
  | cancelled timer =>
      rw [catchExecution_of_cancelled]
      refine ⟨0, appendsAnswers_zero toolCallId conversation, ?_, ?_⟩
      · cases timer with
        | false => exact iff_of_true rfl rfl
        | true => exact iff_of_false Nat.one_ne_zero nofun
      · have atMostOne : lateness (.error (.cancelled timer) : Except Fault ActionResult) ≤ 1 :=
          Bool.toNat_le timer
        refine iff_of_false ?_ fun both => Bool.false_ne_true both.1
        change ¬ 1 < 0 + lateness (.error (.cancelled timer))
        omega

/-- Memory fails after the result of the registry was appended. -/
theorem catchExecution_ends_again (conversation : List Message) (name toolCallId result : String)
    (fault : Fault) (use : ToolUse) :
    Ends toolCallId conversation
      (catchExecution (conversation ++ [.tool toolCallId (.text result)]) name toolCallId fault
        use.report)
      False (fault ≠ .cancelled false) := by
  obtain ⟨count, appended, counts⟩ := catchExecution_ends
    (conversation ++ [.tool toolCallId (.text result)]) name toolCallId fault use
  refine ⟨1 + count, (appendsAnswers_one toolCallId conversation _).trans appended, ?_⟩
  rw [Nat.add_assoc]
  refine counts_one_add ?_
  rw [Nat.one_le_iff_ne_zero]
  exact not_congr counts.none

theorem ends_of_thrown (toolCallId : String) (conversation : List Message) (fault : Fault) :
    Ends toolCallId conversation (conversation, .error fault) (fault.timesOut = false) False := by
  refine ⟨0, appendsAnswers_zero toolCallId conversation, ?_, ?_⟩
  · change 0 + fault.timesOut.toNat = 0 ↔ _
    rw [Nat.zero_add]
    exact Bool.toNat_eq_zero
  · change 1 < 0 + fault.timesOut.toNat ↔ _
    have atMostOne : fault.timesOut.toNat ≤ 1 := Bool.toNat_le fault.timesOut
    exact iff_of_false (by omega) id

theorem ends_of_appended (toolCallId : String) (conversation : List Message)
    (content : ToolContent) (action : Except Fault ActionResult) {again : Prop}
    (late : 1 ≤ lateness action ↔ again) :
    Ends toolCallId conversation (conversation ++ [.tool toolCallId content], action) False again :=
  ⟨1, appendsAnswers_one toolCallId conversation content, counts_one_add late⟩

theorem one_le_lateness_iff {α : Type} (fault : Fault) :
    1 ≤ lateness (.error fault : Except Fault α) ↔ fault.timesOut = true := by
  change 1 ≤ fault.timesOut.toNat ↔ _
  cases fault.timesOut with
  | false => exact iff_of_false (Nat.not_succ_le_zero 0) Bool.false_ne_true
  | true => exact iff_of_true (Nat.le_refl 1) rfl

/-- Over the bridge the message comes first, then the report or the memory. -/
theorem dispatchTool_ends_bridge (conversation : List Message) (name toolCallId : String)
    (use : ToolUse) {result : MCPToolResult} (bridge : use.route = .bridge (.ok result)) :
    Ends toolCallId conversation (dispatchTool conversation name toolCallId use) False
      (if result.isError then ReportLate use
        else ∃ fault, use.memory = .error fault ∧ fault.timesOut = true) := by
  unfold dispatchTool
  rw [bridge]
  dsimp only
  split
  · have late := lateness_autoReport_iff use
    revert late
    cases autoReportToolError use.report with
    | ok done => exact fun late => ends_of_appended toolCallId conversation _ _ late
    | error fault => exact fun late => ends_of_appended toolCallId conversation _ _ late
  · cases use.memory with
    | ok done =>
        exact ends_of_appended toolCallId conversation _ _
          (iff_of_false (Nat.not_succ_le_zero 0) nofun)
    | error fault =>
        refine ends_of_appended toolCallId conversation _ _ ?_
        rw [one_le_lateness_iff]
        constructor
        · intro timesOut
          exact ⟨fault, rfl, timesOut⟩
        · rintro ⟨_, same, timesOut⟩
          cases same
          exact timesOut

/-- A tool of the registry that returned is answered again whenever memory fails. -/
theorem dispatchTool_ends_returned (conversation : List Message) (name toolCallId : String)
    (use : ToolUse) {toolNames : List String} {result : String}
    (registry : use.route = .registry toolNames (.ok result)) (registered : name ∈ toolNames) :
    Ends toolCallId conversation (dispatchTool conversation name toolCallId use) False
      (∃ fault, use.memory = .error fault ∧ fault ≠ .cancelled false) := by
  unfold dispatchTool
  rw [registry]
  dsimp only
  rw [if_pos registered]
  cases use.memory with
  | ok done =>
      exact ends_of_appended toolCallId conversation _ _
        (iff_of_false (Nat.not_succ_le_zero 0) nofun)
  | error fault =>
      obtain ⟨count, appended, counts⟩ :=
        catchExecution_ends_again conversation name toolCallId result fault use
      refine ⟨count, appended, counts.none, counts.several.trans ?_⟩
      constructor
      · intro apart
        exact ⟨fault, rfl, apart⟩
      · rintro ⟨_, same, apart⟩
        cases same
        exact apart

theorem dispatchTool_of_threw {name : String} {use : ToolUse} {toolNames : List String}
    {fault : Fault} (registry : use.route = .registry toolNames (.error fault))
    (registered : name ∈ toolNames) (conversation : List Message) (toolCallId : String) :
    dispatchTool conversation name toolCallId use =
      catchExecution conversation name toolCallId fault use.report := by
  unfold dispatchTool
  rw [registry]
  dsimp only
  rw [if_pos registered]

theorem dispatchTool_of_unregistered {name : String} {use : ToolUse} {toolNames : List String}
    {execute : Except Fault String} (registry : use.route = .registry toolNames execute)
    (unregistered : name ∉ toolNames) (conversation : List Message) (toolCallId : String) :
    dispatchTool conversation name toolCallId use =
      failTool conversation toolCallId true ("工具 '" ++ name ++ "' 未注册") use.report := by
  unfold dispatchTool
  rw [registry]
  dsimp only
  rw [if_neg unregistered]

theorem dispatchTool_ends (conversation : List Message) (name toolCallId : String)
    (use : ToolUse) :
    Ends toolCallId conversation (dispatchTool conversation name toolCallId use)
      (use.Unheard name) (use.Repeated name) := by
  unfold ToolUse.Unheard ToolUse.Repeated
  cases route : use.route with
  | bridge callTool => cases callTool with
    | error fault =>
        have thrown : dispatchTool conversation name toolCallId use =
            (conversation, .error fault) := by
          unfold dispatchTool
          rw [route]
        rw [thrown]
        exact ends_of_thrown toolCallId conversation fault
    | ok result => exact dispatchTool_ends_bridge conversation name toolCallId use route
  | registry toolNames execute =>
      by_cases registered : name ∈ toolNames
      · cases execute with
        | ok result =>
            obtain ⟨count, appended, counts⟩ :=
              dispatchTool_ends_returned conversation name toolCallId use route registered
            refine ⟨count, appended, counts.none.trans ?_, counts.several.trans ?_⟩
            · exact iff_of_false id fun both => nomatch both.2
            · exact iff_of_eq (if_pos registered).symm
        | error fault =>
            rw [dispatchTool_of_threw route registered]
            obtain ⟨count, appended, counts⟩ :=
              catchExecution_ends conversation name toolCallId fault use
            refine ⟨count, appended, counts.none.trans ?_, counts.several.trans ?_⟩
            · exact ⟨fun same => ⟨registered, congrArg Except.error same⟩,
                fun both => Except.error.inj both.2⟩
            · exact and_congr_left fun _ =>
                ⟨fun caught _ => caught, fun caught => caught registered⟩
      · rw [dispatchTool_of_unregistered route registered]
        obtain ⟨count, appended, counts⟩ :=
          failTool_ends conversation toolCallId true ("工具 '" ++ name ++ "' 未注册") use
        refine ⟨count, appended, ?_, ?_⟩
        · exact counts.none.trans (iff_of_false id fun both => registered both.1)
        · refine counts.several.trans ?_
          cases execute with
          | ok result => exact iff_of_eq (if_neg registered).symm
          | error fault => exact (and_iff_right fun member => absurd member registered).symm

/-- A conversation that went on by as many answers as the two conditions say. -/
def Answers (toolCallId : String) (start final : List Message) (never again : Prop) : Prop :=
  ∃ count, AppendsAnswers toolCallId count start final ∧ Counts never again count

theorem doExecuteTool_of_ok {conversation final : List Message} {name toolCallId : String}
    {use : ToolUse} {action : ActionResult} (closed : use.circuitOpen = none)
    (dispatched : dispatchTool conversation name toolCallId use = (final, .ok action)) :
    doExecuteTool conversation name toolCallId use = (final, .ok action) := by
  unfold doExecuteTool
  rw [closed]
  dsimp only
  rw [dispatched]

theorem doExecuteTool_of_error {conversation final : List Message} {name toolCallId : String}
    {use : ToolUse} {fault : Fault} (closed : use.circuitOpen = none)
    (dispatched : dispatchTool conversation name toolCallId use = (final, .error fault)) :
    doExecuteTool conversation name toolCallId use =
      if fault.timesOut then
        failTool final toolCallId false
          ("工具 '" ++ name ++ "' 执行超时（>" ++ use.printedTimeout ++ "s）") use.timeoutReport
      else (final, .error fault) := by
  unfold doExecuteTool
  rw [closed]
  dsimp only
  rw [dispatched]

/-- A timeout appends one more message, which `Ends` already counts. -/
theorem doExecuteTool_answers_of_closed (conversation : List Message) (name toolCallId : String)
    {use : ToolUse} (closed : use.circuitOpen = none) :
    Answers toolCallId conversation (doExecuteTool conversation name toolCallId use).1
      (use.Unheard name) (use.Repeated name) := by
  obtain ⟨count, appended, counts⟩ := dispatchTool_ends conversation name toolCallId use
  cases dispatched : dispatchTool conversation name toolCallId use with
  | mk final result =>
      rw [dispatched] at appended counts
      cases result with
      | ok action =>
          rw [doExecuteTool_of_ok closed dispatched]
          exact ⟨count, appended, counts⟩
      | error fault =>
          rw [doExecuteTool_of_error closed dispatched]
          change Counts _ _ (count + fault.timesOut.toNat) at counts
          cases late : fault.timesOut with
          | false =>
              rw [late] at counts
              rw [if_neg Bool.false_ne_true]
              exact ⟨count, appended, counts⟩
          | true =>
              rw [late] at counts
              rw [if_pos rfl]
              exact ⟨count + 1, appended.trans (failTool_appends final toolCallId _ _ _).1, counts⟩

theorem doExecuteTool_answers (conversation : List Message) (name toolCallId : String)
    (use : ToolUse) :
    Answers toolCallId conversation (doExecuteTool conversation name toolCallId use).1
      (use.circuitOpen = none ∧ use.Unheard name) (use.circuitOpen = none ∧ use.Repeated name) := by
  cases closed : use.circuitOpen with
  | none =>
      obtain ⟨count, appended, counts⟩ :=
        doExecuteTool_answers_of_closed conversation name toolCallId closed
      exact ⟨count, appended, counts.none.trans (and_iff_right rfl).symm,
        counts.several.trans (and_iff_right rfl).symm⟩
  | some error =>
      have rejected : (doExecuteTool conversation name toolCallId use).1 =
          conversation ++ [.tool toolCallId (.error false error)] := by
        unfold doExecuteTool
        rw [closed]
      rw [rejected]
      refine ⟨1, appendsAnswers_one toolCallId conversation _, ?_, ?_⟩
      · exact iff_of_false Nat.one_ne_zero fun both => nomatch both.1
      · exact iff_of_false (Nat.lt_irrefl 1) fun both => nomatch both.1

/-- The hook after the call does not touch the conversation. -/
theorem executeToolCall_conversation {use : ToolUse} {decision : HookDecision}
    (decided : use.beforeToolCall = .ok decision) (passed : ∀ reason, decision ≠ .block reason)
    (conversation : List Message) (name toolCallId : String) :
    (executeToolCall conversation name toolCallId use).1 =
      (doExecuteTool conversation name toolCallId use).1 := by
  unfold executeToolCall
  rw [decided]
  cases decision with
  | block reason => exact (passed reason rfl).elim
  | pass =>
      dsimp only
      rcases doExecuteTool conversation name toolCallId use with ⟨final, action | fault⟩
      · rfl
      · cases use.afterToolCall <;> rfl
  | modify =>
      dsimp only
      rcases doExecuteTool conversation name toolCallId use with ⟨final, action | fault⟩
      · rfl
      · cases use.afterToolCall <;> rfl

theorem act_conversation (conversation : List Message) (name toolCallId : String)
    (use : ToolUse) :
    (act conversation name toolCallId use).1 =
      (executeToolCall conversation name toolCallId use).1 := by
  unfold act
  rcases executeToolCall conversation name toolCallId use with ⟨final, fault | action⟩
  · dsimp only
    split <;> rfl
  · rfl

/-- A tool call that is acted on is answered as often as its conditions say. -/
theorem act_answers (conversation : List Message) (name toolCallId : String) (use : ToolUse) :
    Answers toolCallId conversation (act conversation name toolCallId use).1
      (use.Unanswered name) (use.AnsweredAgain name) := by
  rw [act_conversation]
  unfold ToolUse.Unanswered ToolUse.AnsweredAgain
  cases decided : use.beforeToolCall with
  | error fault =>
      have thrown : (executeToolCall conversation name toolCallId use).1 = conversation := by
        unfold executeToolCall
        rw [decided]
      rw [thrown]
      exact ⟨0, appendsAnswers_zero toolCallId conversation, iff_of_true rfl trivial,
        iff_of_false (Nat.not_succ_le_zero 1) id⟩
  | ok decision => cases decision with
    | block reason =>
        have blocked : (executeToolCall conversation name toolCallId use).1 = conversation := by
          unfold executeToolCall
          rw [decided]
        rw [blocked]
        exact ⟨0, appendsAnswers_zero toolCallId conversation, iff_of_true rfl trivial,
          iff_of_false (Nat.not_succ_le_zero 1) id⟩
    | pass =>
        rw [executeToolCall_conversation decided nofun]
        exact doExecuteTool_answers conversation name toolCallId use
    | modify =>
        rw [executeToolCall_conversation decided nofun]
        exact doExecuteTool_answers conversation name toolCallId use

end YouMi.Core
