import YouMi.Core.ReactLoop
import YouMi.Core.ToolAnswers

/-!
# Tool calls and their answers, over whole runs

A pass appends nothing, or one response of the model with the tool messages of
one call; then perhaps reminders.  A turn may begin a new conversation.  So the
conversation is paired whenever the model is called exactly when the model is
never called while an exchange is left open.
-/

namespace YouMi.Core

open YouMi.Library

namespace Client

/-- The response that is appended, with the tools known to the agent then. -/
def heard : Client → Option (LLMResponse × List String)
  | .absent _ => none
  | .present modelTurn =>
      match modelTurn.beforeModelCall, modelTurn.answer, modelTurn.afterModelCall with
      | .ok (.block _), _, _ => none
      | .ok _, .ok response, .ok _ => some (response, modelTurn.toolNames)
      | _, _, _ => none

/-- The model is asked for the next thought. -/
def Asked (client : Client) : Prop :=
  ∃ modelTurn decision, client = .present modelTurn ∧
    modelTurn.beforeModelCall = .ok decision ∧ ∀ reason, decision ≠ .block reason

end Client

namespace Pass

/-- The model is called, for a summary or for the next thought. -/
def CallsModel (pass : Pass) : Prop :=
  pass.compacts = true ∨ pass.observe = .ok () ∧ pass.client.Asked

/--
The exchange of a response stays open: several ids were asked for, the one call
got no tool message or too many, or a call was made that only the text shows.
-/
def Unsettled (config : AgentConfig) (pass : Pass) (response : LLMResponse)
    (toolNames : List String) : Prop :=
  match response.toolCalls with
  | call :: others =>
      (∃ other ∈ others, other.id ≠ call.id) ∨ pass.use.Unanswered call.name ∨
        pass.use.AnsweredAgain call.name
  | [] =>
      ∃ call, chooseToolCall config response toolNames = .ok (some call) ∧
        ¬ pass.use.Unanswered call.name

/-- The pass appends a response whose exchange stays open. -/
def LeavesOpen (config : AgentConfig) (pass : Pass) : Prop :=
  ∃ response toolNames, pass.observe = .ok () ∧
    pass.client.heard = some (response, toolNames) ∧ pass.Unsettled config response toolNames

theorem leavesOpen_iff {config : AgentConfig} {pass : Pass} {response : LLMResponse}
    {toolNames : List String} (seen : pass.observe = .ok ())
    (heard : pass.client.heard = some (response, toolNames)) :
    pass.LeavesOpen config ↔ pass.Unsettled config response toolNames := by
  constructor
  · rintro ⟨_, _, _, same, unsettled⟩
    cases heard.symm.trans same
    exact unsettled
  · intro unsettled
    exact ⟨response, toolNames, seen, heard, unsettled⟩

end Pass

namespace Agent

variable (config : AgentConfig)

/-- Another pass of the turn will run. -/
def InLoop (agent : Agent) : Prop :=
  match agent.turn with
  | .none => False
  | .running => agent.iterationCount < config.maxIterations
  | .chatting iterations => iterations < config.maxIterations

def BeginsRun (agent : Agent) (start : RunStart) : Prop :=
  agent.turn = .none ∧ agent.status = .idle ∧ start.onStart = .ok () ∧ start.prepare = .ok ()

def BeginsChat (agent : Agent) (start : ChatStart) : Prop :=
  agent.turn = .none ∧ agent.chatInitialized = false ∧
    (agent.status = .created → start.initialized = .ok ())

/-- The event has the model called. -/
def CallsModel (agent : Agent) : Event → Prop
  | .startRun start =>
      agent.turn = .none ∧ agent.status = .idle ∧ start.onStart = .ok () ∧ start.consults = true
  | .pass pass => agent.InLoop config ∧ pass.CallsModel
  | _ => False

/-- Whether an exchange is open after the event, given whether one was open before it. -/
def opens (agent : Agent) (event : Event) (opened : Prop) : Prop :=
  match event with
  | .startRun start => opened ∧ ¬ agent.BeginsRun start
  | .startChat start => opened ∧ ¬ agent.BeginsChat start
  | .pass pass => opened ∨ agent.InLoop config ∧ pass.LeavesOpen config
  | _ => opened

/-- The model is never called while an exchange of the conversation is open. -/
def NeverCallsOpen : Agent → Prop → List Event → Prop :=
  NeverShownOpen (Agent.step config) (CallsModel config) (opens config)

end Agent

/-- The conversation of an agent as a transcript. -/
abbrev Agent.lines (agent : Agent) : List (Line String) := transcript agent.conversation

theorem transcript_append (first second : List Message) :
    transcript (first ++ second) = transcript first ++ transcript second := List.map_append

theorem remarks_users (texts : List String) : Line.Remarks (transcript (texts.map .user)) := by
  intro line member
  obtain ⟨message, among, rfl⟩ := List.mem_map.mp member
  obtain ⟨text, _, rfl⟩ := List.mem_map.mp among
  rfl

theorem remarks_opening (config : AgentConfig) (text : String) :
    Line.Remarks (transcript (Agent.opening config ++ [.user text])) := by
  unfold Agent.opening
  split
  · exact remarks_users [text]
  · intro line member
    rcases List.mem_cons.mp member with rfl | later
    · rfl
    · exact remarks_users [text] line later

/-- The tool messages of one call, as answers. -/
theorem transcript_tools (toolCallId : String) (contents : List ToolContent) :
    transcript (contents.map (Message.tool toolCallId)) =
      (List.replicate contents.length toolCallId).map Line.answer := by
  unfold transcript
  rw [List.map_map, List.map_replicate]
  exact List.map_const'

namespace Agent

/-- The second agent is the first after some user messages; its model was not called. -/
def Extends (before after : Agent) : Prop :=
  after.calls = before.calls ∧
    ∃ texts : List String, after.conversation = before.conversation ++ texts.map .user

theorem Extends.refl (agent : Agent) : Extends agent agent :=
  ⟨rfl, [], (List.append_nil agent.conversation).symm⟩

theorem Extends.trans {first second third : Agent} (before : Extends first second)
    (after : Extends second third) : Extends first third := by
  obtain ⟨sameCalls, texts, conversationEq⟩ := before
  obtain ⟨sameCallsAfter, others, conversationEqAfter⟩ := after
  refine ⟨sameCallsAfter.trans sameCalls, texts ++ others, ?_⟩
  rw [conversationEqAfter, conversationEq, List.map_append, List.append_assoc]

theorem extends_of_same {before after : Agent} (calls : after.calls = before.calls)
    (conversation : after.conversation = before.conversation) : Extends before after :=
  ⟨calls, [], conversation.trans (List.append_nil _).symm⟩

theorem extends_endTurn (agent : Agent) (status : AgentStatus) :
    Extends agent (agent.endTurn status) := extends_of_same rfl rfl

theorem extends_remindOfFailures (agent : Agent) (action : ActionResult) :
    Extends agent (agent.remindOfFailures action) := by
  unfold remindOfFailures
  split
  · exact extends_of_same rfl rfl
  · dsimp only
    split
    · exact ⟨rfl, [_], rfl⟩
    · exact extends_of_same rfl rfl

theorem extends_remindOfBudget (config : AgentConfig) (agent : Agent) :
    Extends agent (agent.remindOfBudget config) := by
  unfold remindOfBudget
  split
  · exact ⟨rfl, [_], rfl⟩
  · exact Extends.refl agent

theorem extends_injectConvergenceReminders (config : AgentConfig) (agent : Agent)
    (action : ActionResult) (willContinue : Bool) :
    Extends agent (agent.injectConvergenceReminders config action willContinue) := by
  unfold injectConvergenceReminders
  split
  · exact (extends_remindOfFailures agent action).trans (extends_remindOfBudget config _)
  · exact Extends.refl agent

theorem extends_completeRun (agent : Agent) (response : String) (memory : Except Fault Unit) :
    Extends agent (agent.completeRun response memory) := by
  unfold completeRun
  split
  · exact extends_endTurn agent _
  · split
    · exact extends_endTurn agent _
    · exact extends_endTurn agent _

theorem extends_endChat (agent : Agent) (response : String) (memory : Except Fault Unit) :
    Extends agent (agent.endChat response memory) := by
  unfold endChat
  split
  · exact extends_endTurn agent _
  · split
    · exact extends_endTurn agent _
    · exact extends_endTurn agent _

theorem extends_chatFailed (agent : Agent) (fault : Fault) (memory : Except Fault Unit) :
    Extends agent (agent.chatFailed fault memory) := by
  unfold chatFailed
  split
  · exact extends_endChat agent _ memory
  · exact extends_endTurn agent _

theorem think_of_unheard {client : Client} (unheard : client.heard = none)
    (config : AgentConfig) (agent : Agent) :
    (agent.think config client).1.conversation = agent.conversation ∧
      ∀ toolCallId name, (agent.think config client).2 ≠ .ok (.toolCall toolCallId name) := by
  unfold think
  cases client with
  | absent lastUser => exact ⟨rfl, nofun⟩
  | present modelTurn =>
      obtain ⟨before, streamFails, answer, after, toolNames⟩ := modelTurn
      cases before with
      | error fault => exact ⟨rfl, nofun⟩
      | ok decision =>
          cases answer with
          | error fault => cases decision <;> exact ⟨rfl, nofun⟩
          | ok response =>
              cases after with
              | error fault => cases decision <;> exact ⟨rfl, nofun⟩
              | ok done => cases decision with
                | block reason => exact ⟨rfl, nofun⟩
                | pass => cases unheard
                | modify => cases unheard

/-- The thought that a response leads to. -/
def thoughtOf (config : AgentConfig) (response : LLMResponse) (toolNames : List String) :
    Except Fault Thought :=
  match chooseToolCall config response toolNames with
  | .error fault => .error fault
  | .ok (some call) => .ok (.toolCall call.id call.name)
  | .ok none => .ok (.respond response.content)

theorem think_of_heard {client : Client} {response : LLMResponse} {toolNames : List String}
    (heard : client.heard = some (response, toolNames)) (config : AgentConfig) (agent : Agent) :
    (agent.think config client).1.conversation = agent.conversation ++ [response.rawMessage] ∧
      (agent.think config client).2 = thoughtOf config response toolNames := by
  cases client with
  | absent lastUser => cases heard
  | present modelTurn =>
      obtain ⟨before, streamFails, answer, after, names⟩ := modelTurn
      cases before with
      | error fault => cases heard
      | ok decision =>
          cases answer with
          | error fault => cases decision <;> cases heard
          | ok given =>
              cases after with
              | error fault => cases decision <;> cases heard
              | ok done =>
                  have answered :
                      let modelTurn := ModelTurn.mk (.ok .pass) streamFails (.ok given) (.ok done) names
                      (agent.think config (.present modelTurn)).1.conversation =
                          agent.conversation ++ [given.rawMessage] ∧
                        (agent.think config (.present modelTurn)).2 =
                          thoughtOf config given names := by
                    unfold think thoughtOf
                    dsimp only [callLLM]
                    cases chooseToolCall config given names with
                    | error fault => exact ⟨rfl, rfl⟩
                    | ok chosen => cases chosen <;> exact ⟨rfl, rfl⟩
                  cases decision with
                  | block reason => cases heard
                  | pass => cases heard; exact answered
                  | modify => cases heard; exact answered

theorem think_calls (config : AgentConfig) (agent : Agent) (client : Client) :
    ∃ count, (agent.think config client).1.calls =
        agent.calls ++ List.replicate count agent.conversation ∧
      (client.Asked ↔ count ≠ 0) := by
  have uncalled : agent.calls = agent.calls ++ List.replicate 0 agent.conversation :=
    (List.append_nil agent.calls).symm
  unfold think
  cases client with
  | absent lastUser => exact ⟨0, uncalled, iff_of_false (fun ⟨_, _, same, _⟩ => nomatch same)
      fun some => some rfl⟩
  | present modelTurn =>
      dsimp only
      split
      · rename_i failed
        refine ⟨0, uncalled, iff_of_false ?_ (fun some => some rfl)⟩
        rintro ⟨_, decision, same, decided, _⟩
        cases same
        rw [failed] at decided
        cases decided
      · rename_i reason blocked
        refine ⟨0, uncalled, iff_of_false ?_ (fun some => some rfl)⟩
        rintro ⟨_, decision, same, decided, passed⟩
        cases same
        rw [blocked] at decided
        cases decided
        exact passed reason rfl
      · rename_i decision passed decided
        have asked : (Client.present modelTurn).Asked :=
          ⟨modelTurn, decision, rfl, decided, fun reason same => passed reason same⟩
        refine ⟨modelTurn.streamFails.toNat + 1, ?_, iff_of_true asked (Nat.succ_ne_zero _)⟩
        unfold callLLM
        cases modelTurn.answer with
        | error fault => rfl
        | ok response =>
            dsimp only
            cases modelTurn.afterModelCall with
            | error fault => rfl
            | ok done =>
                dsimp only
                split <;> rfl

section React

variable (config : AgentConfig) (agent : Agent) {pass : Pass}

/-- The agent once it has observed. -/
def observed (agent : Agent) (pass : Pass) : Agent := agent.callModel pass.compacts.toNat

theorem react_of_observe_error {fault : Fault} (failed : pass.observe = .error fault) :
    agent.react config pass = (agent.observed pass, .error fault) := by
  unfold react observe
  rw [failed]
  rfl

theorem react_calls_eq (seen : pass.observe = .ok ()) :
    (agent.react config pass).1.calls = ((agent.observed pass).think config pass.client).1.calls := by
  unfold react observe
  rw [seen]
  dsimp only
  change _ = ((agent.callModel pass.compacts.toNat).think config pass.client).1.calls
  cases (agent.callModel pass.compacts.toNat).think config pass.client with
  | mk after thought => cases thought with
    | error fault => rfl
    | ok thought => cases thought with
      | respond response => rfl
      | toolCall toolCallId name =>
          dsimp only
          cases act after.conversation name toolCallId pass.use with
          | mk conversation action => cases action <;> rfl

theorem react_of_toolCall (seen : pass.observe = .ok ()) {toolCallId name : String}
    (chosen : ((agent.observed pass).think config pass.client).2 =
      .ok (.toolCall toolCallId name)) :
    (agent.react config pass).1.conversation =
      (act ((agent.observed pass).think config pass.client).1.conversation name toolCallId
        pass.use).1 := by
  unfold react observe
  rw [seen]
  dsimp only
  change ((agent.callModel pass.compacts.toNat).think config pass.client).2 = _ at chosen
  change _ = (act ((agent.callModel pass.compacts.toNat).think config pass.client).1.conversation
    name toolCallId pass.use).1
  revert chosen
  cases (agent.callModel pass.compacts.toNat).think config pass.client with
  | mk after thought =>
      intro chosen
      cases chosen
      dsimp only
      cases act after.conversation name toolCallId pass.use with
      | mk conversation action => cases action <;> rfl

theorem react_of_no_toolCall (seen : pass.observe = .ok ())
    (other : ∀ toolCallId name,
      ((agent.observed pass).think config pass.client).2 ≠ .ok (.toolCall toolCallId name)) :
    (agent.react config pass).1.conversation =
      ((agent.observed pass).think config pass.client).1.conversation := by
  unfold react observe
  rw [seen]
  dsimp only
  change ∀ toolCallId name, ((agent.callModel pass.compacts.toNat).think config pass.client).2 ≠ _
    at other
  change _ = ((agent.callModel pass.compacts.toNat).think config pass.client).1.conversation
  revert other
  cases (agent.callModel pass.compacts.toNat).think config pass.client with
  | mk after thought =>
      intro other
      cases thought with
      | error fault => rfl
      | ok thought => cases thought with
        | respond response => rfl
        | toolCall toolCallId name => exact (other toolCallId name rfl).elim

/-- Every call of the model in a pass sees the conversation with which the pass began. -/
theorem react_calls (pass : Pass) :
    ∃ count, (agent.react config pass).1.calls =
        agent.calls ++ List.replicate count agent.conversation ∧
      (pass.CallsModel ↔ count ≠ 0) := by
  have compacts : pass.compacts = true ↔ pass.compacts.toNat ≠ 0 := by
    cases pass.compacts <;> decide
  cases seen : pass.observe with
  | error fault =>
      rw [react_of_observe_error config agent seen]
      refine ⟨pass.compacts.toNat, rfl, ?_⟩
      unfold Pass.CallsModel
      rw [seen, compacts]
      exact or_iff_left fun both => nomatch both.1
  | ok done =>
      obtain ⟨count, callsEq, asked⟩ := think_calls config (agent.observed pass) pass.client
      refine ⟨pass.compacts.toNat + count, ?_, ?_⟩
      · rw [react_calls_eq config agent seen, callsEq, List.replicate_add]
        exact List.append_assoc _ _ _
      · unfold Pass.CallsModel
        rw [seen, and_iff_right rfl, compacts, asked]
        omega

/-- A pass that appends no response leaves the conversation as it is. -/
theorem react_of_unheard (unheard : ∀ response, pass.observe = .ok () →
    pass.client.heard ≠ some response) :
    (agent.react config pass).1.conversation = agent.conversation := by
  cases seen : pass.observe with
  | error fault =>
      rw [react_of_observe_error config agent seen]
      rfl
  | ok done =>
      have silent : pass.client.heard = none :=
        Option.eq_none_iff_forall_ne_some.mpr fun response => unheard response seen
      obtain ⟨same, other⟩ := think_of_unheard silent config (agent.observed pass)
      rw [react_of_no_toolCall config agent seen other, same]
      rfl

/-- A response whose call was chosen is followed by the tool messages of that call. -/
theorem react_of_chosen (seen : pass.observe = .ok ()) {response : LLMResponse}
    {toolNames : List String} (heard : pass.client.heard = some (response, toolNames))
    {call : ToolCall} (chosen : chooseToolCall config response toolNames = .ok (some call)) :
    ∃ contents : List ToolContent,
      (agent.react config pass).1.conversation =
          agent.conversation ++ response.rawMessage :: contents.map (.tool call.id) ∧
        Counts (pass.use.Unanswered call.name) (pass.use.AnsweredAgain call.name)
          contents.length := by
  obtain ⟨appended, thought⟩ := think_of_heard heard config (agent.observed pass)
  have called : ((agent.observed pass).think config pass.client).2 =
      .ok (.toolCall call.id call.name) := by
    rw [thought]
    unfold thoughtOf
    rw [chosen]
  obtain ⟨_, ⟨contents, rfl, final⟩, counts⟩ :=
    act_answers ((agent.observed pass).think config pass.client).1.conversation call.name call.id
      pass.use
  refine ⟨contents, ?_, counts⟩
  rw [react_of_toolCall config agent seen called, final, appended]
  exact List.append_assoc _ _ _

theorem react_of_unchosen (seen : pass.observe = .ok ()) {response : LLMResponse}
    {toolNames : List String} (heard : pass.client.heard = some (response, toolNames))
    (unchosen : ∀ call, chooseToolCall config response toolNames ≠ .ok (some call)) :
    (agent.react config pass).1.conversation = agent.conversation ++ [response.rawMessage] := by
  obtain ⟨appended, thought⟩ := think_of_heard heard config (agent.observed pass)
  rw [react_of_no_toolCall config agent seen, appended]
  · rfl
  · intro toolCallId name called
    rw [thought] at called
    unfold thoughtOf at called
    cases choice : chooseToolCall config response toolNames with
    | error fault =>
        rw [choice] at called
        cases called
    | ok chosen =>
        rw [choice] at called
        cases chosen with
        | none => cases called
        | some call => exact unchosen call choice

/-- A pass that appends a response makes one exchange, open or answered. -/
theorem react_of_heard (seen : pass.observe = .ok ()) {response : LLMResponse}
    {toolNames : List String} (heard : pass.client.heard = some (response, toolNames)) :
    ∃ toolCallId, ∃ contents : List ToolContent,
      (agent.react config pass).1.conversation =
          agent.conversation ++ response.rawMessage :: contents.map (.tool toolCallId) ∧
        (pass.LeavesOpen config ↔
          ¬ Line.Answered (response.toolCalls.map ToolCall.id)
            (List.replicate contents.length toolCallId)) := by
  rw [Pass.leavesOpen_iff seen heard]
  unfold Pass.Unsettled
  cases calls : response.toolCalls with
  | cons call others =>
      have chosen : chooseToolCall config response toolNames = .ok (some call) := by
        unfold chooseToolCall
        rw [calls]
      obtain ⟨contents, appended, counts⟩ := react_of_chosen config agent seen heard chosen
      refine ⟨call.id, contents, appended, ?_⟩
      dsimp only
      rw [List.map_cons, Line.answered_replicate_iff, counts.one, List.forall_mem_map]
      simp only [not_and_or, not_not, not_forall, exists_prop]
  | nil =>
      by_cases choice : ∃ call, chooseToolCall config response toolNames = .ok (some call)
      · obtain ⟨call, chosen⟩ := choice
        obtain ⟨contents, appended, counts⟩ := react_of_chosen config agent seen heard chosen
        refine ⟨call.id, contents, appended, ?_⟩
        dsimp only
        rw [List.map_nil, Line.answered_nil_iff, List.replicate_eq_nil_iff, counts.none]
        constructor
        · rintro ⟨other, alsoChosen, answered⟩
          cases chosen.symm.trans alsoChosen
          exact answered
        · intro answered
          exact ⟨call, chosen, answered⟩
      · have unchosen : ∀ call, chooseToolCall config response toolNames ≠ .ok (some call) :=
          fun call chosen => choice ⟨call, chosen⟩
        refine ⟨"", [], react_of_unchosen config agent seen heard unchosen, ?_⟩
        dsimp only
        rw [List.map_nil, Line.answered_nil_iff]
        exact iff_of_false (fun ⟨call, chosen, _⟩ => unchosen call chosen) fun apart => apart rfl

/-- What the loop does to the transcript: nothing, or one exchange. -/
theorem react_moves (pass : Pass) (final : Agent)
    (extended : Extends (agent.react config pass).1 final) :
    ∃ move : Move String, move.Moves agent.lines final.lines ∧
      ∀ opened, (opened ∨ pass.LeavesOpen config) ↔ move.opens opened := by
  obtain ⟨_, texts, conversationEq⟩ := extended
  have finalEq : final.lines =
      transcript (agent.react config pass).1.conversation ++ transcript (texts.map .user) := by
    rw [← transcript_append, ← conversationEq]
  have quiet := remarks_users texts
  by_cases answered : ∃ response, pass.observe = .ok () ∧ pass.client.heard = some response
  · obtain ⟨⟨response, toolNames⟩, seen, heard⟩ := answered
    obtain ⟨toolCallId, contents, appended, opens⟩ := react_of_heard config agent seen heard
    have given : Line.answers (transcript (contents.map (.tool toolCallId)) ++
        transcript (texts.map .user)) = List.replicate contents.length toolCallId := by
      rw [transcript_tools]
      exact Line.answers_map_answer_append _ quiet
    have unasking : Line.Unasking (transcript (contents.map (.tool toolCallId)) ++
        transcript (texts.map .user)) := by
      rw [transcript_tools]
      exact Line.unasking_map_answer_append _ quiet
    refine ⟨.exchange (response.toolCalls.map ToolCall.id)
      (List.replicate contents.length toolCallId), ?_, fun opened => or_congr_right opens⟩
    have moved : (Move.exchange (response.toolCalls.map ToolCall.id) _).Moves agent.lines
        (agent.lines ++ .request (response.toolCalls.map ToolCall.id) ::
          (transcript (contents.map (.tool toolCallId)) ++ transcript (texts.map .user))) :=
      .exchange (response.toolCalls.map ToolCall.id) unasking
    rw [given] at moved
    rw [finalEq, appended, transcript_append, List.append_assoc]
    exact moved
  · refine ⟨.remarks, ?_, fun opened => ?_⟩
    · have same : (agent.react config pass).1.conversation = agent.conversation :=
        react_of_unheard config agent fun response seen heard => answered ⟨response, seen, heard⟩
      rw [finalEq, same]
      exact .remarks quiet
    · refine or_iff_left ?_
      rintro ⟨response, toolNames, seen, heard, _⟩
      exact answered ⟨_, seen, heard⟩

end React

section Steps

variable (config : AgentConfig)

theorem runPass_extends {agent : Agent} (goesOn : agent.iterationCount < config.maxIterations)
    (pass : Pass) :
    Extends ({ agent with iterationCount := agent.iterationCount + 1 }.react config pass).1
      (agent.runPass config pass) := by
  unfold runPass
  rw [if_pos goesOn]
  cases { agent with iterationCount := agent.iterationCount + 1 }.react config pass with
  | mk after outcome => cases outcome with
    | error fault => exact extends_endTurn after _
    | ok result =>
        obtain ⟨thought, action⟩ := result
        cases thought with
        | toolCall toolCallId name =>
            exact extends_injectConvergenceReminders config after action true
        | respond response =>
            exact (extends_injectConvergenceReminders config after action false).trans
              (extends_completeRun _ response pass.memory)

theorem chatPass_extends {agent : Agent} {iterations : Nat}
    (goesOn : iterations < config.maxIterations) (pass : Pass) :
    Extends (agent.react config pass).1 (agent.chatPass config iterations pass) := by
  unfold chatPass
  rw [if_pos goesOn]
  cases agent.react config pass with
  | mk after outcome => cases outcome with
    | error fault => exact extends_chatFailed after fault pass.memory
    | ok result =>
        obtain ⟨thought, action⟩ := result
        cases thought with
        | toolCall toolCallId name => exact extends_of_same rfl rfl
        | respond response => exact extends_endChat after response pass.memory

/-- Whatever a step does, it moves the transcript and shows it as `opens` and `CallsModel` say. -/
structure StepLaw (agent : Agent) (event : Event) (final : Agent) : Prop where
  moves : ∃ move : Move String, move.Moves agent.lines final.lines ∧
    ∀ opened, agent.opens config event opened ↔ move.opens opened
  calls : ∃ count, final.calls = agent.calls ++ List.replicate count agent.conversation ∧
    (agent.CallsModel config event ↔ count ≠ 0)

variable {config}

/-- An event that only adds user messages. -/
theorem stepLaw_of_extends {agent final : Agent} {event : Event} (extended : Extends agent final)
    (uncalled : ¬ agent.CallsModel config event)
    (unopened : ∀ opened, agent.opens config event opened ↔ opened) :
    StepLaw config agent event final := by
  obtain ⟨callsEq, texts, conversationEq⟩ := extended
  refine ⟨⟨.remarks, ?_, unopened⟩, 0, ?_, iff_of_false uncalled fun some => some rfl⟩
  · have finalEq : final.lines = agent.lines ++ transcript (texts.map .user) := by
      rw [← transcript_append, ← conversationEq]
    rw [finalEq]
    exact .remarks (remarks_users texts)
  · rw [callsEq]
    exact (List.append_nil agent.calls).symm

/-- A pass within the loop. -/
theorem stepLaw_of_pass {agent before final : Agent} {pass : Pass} (inLoop : agent.InLoop config)
    (sameCalls : before.calls = agent.calls)
    (sameConversation : before.conversation = agent.conversation)
    (extended : Extends (before.react config pass).1 final) :
    StepLaw config agent (.pass pass) final := by
  refine ⟨?_, ?_⟩
  · obtain ⟨move, moves, opens⟩ := react_moves config before pass final extended
    have sameLines : before.lines = agent.lines := congrArg transcript sameConversation
    rw [sameLines] at moves
    refine ⟨move, moves, fun opened => (or_congr_right ?_).trans (opens opened)⟩
    exact and_iff_right inLoop
  · obtain ⟨count, callsEq, calls⟩ := react_calls config before pass
    refine ⟨count, ?_, (and_iff_right inLoop).trans calls⟩
    rw [extended.1, callsEq, sameCalls, sameConversation]

/-- A pass that finds the iterations used up, or no turn at all. -/
theorem stepLaw_of_no_pass {agent final : Agent} {pass : Pass} (beyond : ¬ agent.InLoop config)
    (extended : Extends agent final) : StepLaw config agent (.pass pass) final :=
  stepLaw_of_extends extended (fun both => beyond both.1) fun _ => or_iff_left fun both => beyond both.1

theorem stepLaw_pass (agent : Agent) (pass : Pass) :
    StepLaw config agent (.pass pass) (agent.step config (.pass pass)) := by
  by_cases inLoop : agent.InLoop config
  · cases turn : agent.turn with
    | none =>
        unfold InLoop at inLoop
        rw [turn] at inLoop
        exact inLoop.elim
    | running =>
        have stepEq : agent.step config (.pass pass) = agent.runPass config pass := by
          unfold step
          rw [turn]
        have goesOn := inLoop
        unfold InLoop at goesOn
        rw [turn] at goesOn
        rw [stepEq]
        refine stepLaw_of_pass inLoop ?_ ?_ (runPass_extends config goesOn pass)
        · rfl
        · rfl
    | chatting iterations =>
        have stepEq : agent.step config (.pass pass) = agent.chatPass config iterations pass := by
          unfold step
          rw [turn]
        have goesOn := inLoop
        unfold InLoop at goesOn
        rw [turn] at goesOn
        rw [stepEq]
        exact stepLaw_of_pass inLoop rfl rfl (chatPass_extends config goesOn pass)
  · refine stepLaw_of_no_pass inLoop ?_
    unfold InLoop at inLoop
    unfold step
    cases turn : agent.turn with
    | none => exact Extends.refl agent
    | running =>
        rw [turn] at inLoop
        dsimp only
        unfold runPass
        rw [if_neg inLoop]
        exact extends_endTurn agent _
    | chatting iterations =>
        rw [turn] at inLoop
        dsimp only
        unfold chatPass
        rw [if_neg inLoop]
        exact extends_endChat agent _ pass.memory

/-- A turn that begins a new conversation. -/
theorem stepLaw_of_restart {agent final : Agent} {event : Event} {count : Nat}
    (remarks : Line.Remarks final.lines)
    (callsEq : final.calls = agent.calls ++ List.replicate count agent.conversation)
    (calls : agent.CallsModel config event ↔ count ≠ 0)
    (closes : ∀ opened, ¬ agent.opens config event opened) : StepLaw config agent event final :=
  ⟨⟨.restart, .restart remarks, fun opened => iff_of_false (closes opened) id⟩, count, callsEq,
    calls⟩

/-- A turn that does not begin, or stops before its conversation does. -/
theorem stepLaw_of_same {agent final : Agent} {event : Event} {count : Nat}
    (same : final.conversation = agent.conversation)
    (callsEq : final.calls = agent.calls ++ List.replicate count agent.conversation)
    (calls : agent.CallsModel config event ↔ count ≠ 0)
    (unopened : ∀ opened, agent.opens config event opened ↔ opened) :
    StepLaw config agent event final := by
  refine ⟨⟨.remarks, ?_, unopened⟩, count, callsEq, calls⟩
  have finalEq : final.lines = agent.lines ++ [] := by
    rw [List.append_nil]
    exact congrArg transcript same
  rw [finalEq]
  exact .remarks nofun

theorem stepLaw_startRun (agent : Agent) (start : RunStart) :
    StepLaw config agent (.startRun start) (agent.step config (.startRun start)) := by
  by_cases ready : agent.turn = .none ∧ agent.status = .idle ∧ start.onStart = .ok ()
  · obtain ⟨between, idle, started⟩ := ready
    have calls : agent.CallsModel config (.startRun start) ↔ start.consults.toNat ≠ 0 := by
      change agent.turn = .none ∧ agent.status = .idle ∧ start.onStart = .ok () ∧ _ ↔ _
      rw [and_iff_right between, and_iff_right idle, and_iff_right started]
      cases start.consults <;> decide
    have stepEq : agent.step config (.startRun start) = agent.startRun config start := by
      unfold step
      rw [between]
    rw [stepEq]
    unfold startRun
    rw [if_pos idle, started]
    dsimp only
    cases prepared : start.prepare with
    | error fault =>
        refine stepLaw_of_same rfl rfl calls fun opened => and_iff_left ?_
        rintro ⟨_, _, _, done⟩
        rw [prepared] at done
        cases done
    | ok done =>
        dsimp only
        have closes : ∀ opened, ¬ agent.opens config (.startRun start) opened :=
          fun opened both => both.2 ⟨between, idle, started, prepared⟩
        cases start.memory with
        | error fault =>
            exact stepLaw_of_restart (remarks_opening config start.task) rfl calls closes
        | ok stored => exact stepLaw_of_restart (remarks_opening config start.task) rfl calls closes
  · have uncalled : ¬ agent.CallsModel config (.startRun start) :=
      fun all => ready ⟨all.1, all.2.1, all.2.2.1⟩
    have unopened : ∀ opened, agent.opens config (.startRun start) opened ↔ opened :=
      fun opened => and_iff_left fun all => ready ⟨all.1, all.2.1, all.2.2.1⟩
    refine stepLaw_of_extends ?_ uncalled unopened
    unfold step
    cases between : agent.turn with
    | running => exact Extends.refl agent
    | chatting iterations => exact Extends.refl agent
    | none =>
        dsimp only
        unfold startRun
        by_cases idle : agent.status = .idle
        · rw [if_pos idle]
          cases started : start.onStart with
          | ok done => exact (ready ⟨between, idle, started⟩).elim
          | error fault => exact extends_of_same rfl rfl
        · rw [if_neg idle]
          exact Extends.refl agent

variable (config) in
theorem ensureChatInitialized_of_begins {agent : Agent} {start : ChatStart}
    (begins : agent.BeginsChat start) :
    ∃ after, agent.ensureChatInitialized config start.initialized = .ok after ∧
      after.conversation = opening config ∧ after.calls = agent.calls := by
  obtain ⟨_, first, initialized⟩ := begins
  unfold ensureChatInitialized
  rw [first, if_neg Bool.false_ne_true]
  dsimp only
  by_cases created : agent.status = .created
  · rw [if_pos created, initialized created]
    exact ⟨_, rfl, rfl, rfl⟩
  · rw [if_neg created]
    exact ⟨_, rfl, rfl, rfl⟩

variable (config) in
theorem ensureChatInitialized_of_not_begins {agent : Agent} {start : ChatStart}
    (between : agent.turn = .none) (later : ¬ agent.BeginsChat start) :
    agent.ensureChatInitialized config start.initialized = .ok agent ∨
      ∃ fault, agent.ensureChatInitialized config start.initialized = .error fault := by
  unfold ensureChatInitialized
  cases first : agent.chatInitialized with
  | true => exact .inl (if_pos rfl)
  | false =>
      rw [if_neg Bool.false_ne_true]
      dsimp only
      by_cases created : agent.status = .created
      · rw [if_pos created]
        cases initialized : start.initialized with
        | error fault => exact .inr ⟨fault, rfl⟩
        | ok done => exact (later ⟨between, first, fun _ => initialized⟩).elim
      · exact (later ⟨between, first, fun same => absurd same created⟩).elim

theorem startChat_of_ok {agent after : Agent} {start : ChatStart}
    (ensured : agent.ensureChatInitialized config start.initialized = .ok after) :
    (agent.startChat config start).conversation = after.conversation ++ [.user start.message] ∧
      (agent.startChat config start).calls = after.calls := by
  unfold startChat
  rw [ensured]
  dsimp only
  cases start.memory with
  | error fault => exact ⟨rfl, rfl⟩
  | ok stored => exact ⟨rfl, rfl⟩

theorem startChat_extends {agent : Agent} {start : ChatStart} (between : agent.turn = .none)
    (later : ¬ agent.BeginsChat start) : Extends agent (agent.startChat config start) := by
  rcases ensureChatInitialized_of_not_begins config between later with
    same | ⟨fault, failed⟩
  · obtain ⟨conversationEq, callsEq⟩ := startChat_of_ok same
    exact ⟨callsEq, [start.message], conversationEq⟩
  · unfold startChat
    rw [failed]
    exact Extends.refl agent

/-- Within a turn no chat is opened. -/
theorem stepLaw_startChat_within {agent : Agent} (within : agent.turn ≠ .none)
    (start : ChatStart) :
    StepLaw config agent (.startChat start) (agent.step config (.startChat start)) := by
  have stepEq : agent.step config (.startChat start) = agent := by
    unfold step
    cases between : agent.turn with
    | none => exact absurd between within
    | running => rfl
    | chatting iterations => rfl
  rw [stepEq]
  exact stepLaw_of_extends (Extends.refl agent) id fun opened => and_iff_left
    fun begins => within begins.1

theorem stepLaw_startChat (agent : Agent) (start : ChatStart) :
    StepLaw config agent (.startChat start) (agent.step config (.startChat start)) := by
  have uncalled : ¬ agent.CallsModel config (.startChat start) := id
  cases between : agent.turn with
  | none =>
      have stepEq : agent.step config (.startChat start) = agent.startChat config start := by
        unfold step
        rw [between]
      rw [stepEq]
      by_cases begins : agent.BeginsChat start
      · obtain ⟨after, ensured, conversationEq, callsEq⟩ :=
          ensureChatInitialized_of_begins config begins
        obtain ⟨finalEq, finalCalls⟩ := startChat_of_ok ensured
        have quiet : Line.Remarks (agent.startChat config start).lines := by
          unfold lines
          rw [finalEq, conversationEq]
          exact remarks_opening config start.message
        have sameCalls : (agent.startChat config start).calls =
            agent.calls ++ List.replicate 0 agent.conversation := by
          rw [finalCalls, callsEq]
          exact (List.append_nil agent.calls).symm
        exact stepLaw_of_restart quiet sameCalls (iff_of_false uncalled fun some => some rfl)
          fun opened both => both.2 begins
      · exact stepLaw_of_extends (startChat_extends between begins) uncalled
          fun opened => and_iff_left begins
  | running => exact stepLaw_startChat_within (by rw [between]; nofun) start
  | chatting iterations => exact stepLaw_startChat_within (by rw [between]; nofun) start

/-- Setting the agent up, or destroying it, only touches its status. -/
theorem step_setUp_or_destroy (agent : Agent) (outcome : Except Fault Unit) :
    Extends agent (agent.step config (.setUp outcome)) ∧
      Extends agent (agent.step config (.destroy outcome)) := by
  unfold step
  cases outcome with
  | error fault => cases agent.turn <;> exact ⟨Extends.refl agent, Extends.refl agent⟩
  | ok done =>
      cases agent.turn with
      | none =>
          refine ⟨?_, extends_of_same rfl rfl⟩
          dsimp only
          split
          · exact extends_of_same rfl rfl
          · exact Extends.refl agent
      | running => exact ⟨Extends.refl agent, Extends.refl agent⟩
      | chatting iterations => exact ⟨Extends.refl agent, Extends.refl agent⟩

theorem stepLaw (agent : Agent) (event : Event) :
    StepLaw config agent event (agent.step config event) := by
  cases event with
  | setUp outcome =>
      exact stepLaw_of_extends (step_setUp_or_destroy agent outcome).1 id fun _ => Iff.rfl
  | destroy outcome =>
      exact stepLaw_of_extends (step_setUp_or_destroy agent outcome).2 id fun _ => Iff.rfl
  | startRun start => exact stepLaw_startRun agent start
  | startChat start => exact stepLaw_startChat agent start
  | pass pass => exact stepLaw_pass agent pass

end Steps

/-- The agent after the events, from its creation. -/
def after (config : AgentConfig) (events : List Event) : Agent :=
  run (Agent.step config) {} events

/-- When every pass answers what it asks, no call of the model comes too early. -/
theorem neverCallsOpen_of_answered {config : AgentConfig} {events : List Event}
    (answered : ∀ pass, .pass pass ∈ events → ¬ pass.LeavesOpen config) (agent : Agent) :
    NeverCallsOpen config agent False events := by
  refine neverShownOpen_of_closed ?_ agent
  intro event member before
  cases event with
  | setUp outcome => exact id
  | destroy outcome => exact id
  | startRun start => exact And.left
  | startChat start => exact And.left
  | pass pass =>
      rintro (opened | ⟨_, leftOpen⟩)
      · exact opened
      · exact answered pass member leftOpen

end Agent

/-- An execution that goes well, of a tool in the registry. -/
def smoothUse (toolNames : List String) (result : String) : ToolUse :=
  { beforeToolCall := .ok .pass
    circuitOpen := none
    route := .registry toolNames (.ok result)
    memory := .ok ()
    report := .ok ()
    printedTimeout := "180"
    timeoutReport := .ok ()
    afterToolCall := .ok .pass }

/-- A pass in which the model answers at once, and its tool returns the result. -/
def answeringPass (toolNames : List String) (response : LLMResponse) (result : String) : Pass :=
  { compacts := false
    observe := .ok ()
    client := .present
      { beforeModelCall := .ok .pass
        streamFails := false
        answer := .ok response
        afterModelCall := .ok .pass
        toolNames := toolNames }
    use := smoothUse toolNames result
    memory := .ok () }

/-- The model asks for two tools in one response, and is called again. -/
def twoCallsRun : List Agent.Event :=
  [.setUp (.ok ()),
    .startRun
      { task := "weather and time"
        onStart := .ok ()
        consults := true
        prepare := .ok ()
        memory := .ok () },
    .pass (answeringPass ["weather", "time"]
      { content := "", toolCalls := [⟨"call_1", "weather"⟩, ⟨"call_2", "time"⟩] } "sunny"),
    .pass (answeringPass ["weather", "time"] { content := "sunny", toolCalls := [] } "")]

def plainConfig : AgentConfig := { recognise := fun _ _ => .ok [] }

end YouMi.Core
