import Mathlib.Data.List.Forall2
import YouMi.Core.ChatStreamLaws

/-!
# A streamed turn does what a plain one does

Where no call is rejected and no text draws a reminder, `chat_turn_stream` leaves the
agent as `chat_turn` does and comes to the same result.  After a text with a tool call in
it an error has another response.
-/

namespace YouMi.Core

open YouMi.Library

/-- The results say the same, but for the response to an error. -/
structure ChatResult.Agrees (plain streamed : ChatResult) : Prop where
  iterations : plain.iterations = streamed.iterations
  toolCalls : plain.toolCalls = streamed.toolCalls
  error : plain.error = streamed.error
  response : plain.error = none → plain.response = streamed.response

/-- The call is not rejected, and a text without a tool call is short or there are no tools. -/
def StreamPass.Unprompted (config : AgentConfig) (pass : StreamPass) : Prop :=
  match pass.answer with
  | none | some (.failed _) => True
  | some (.badRequest _) => False
  | some (.answered response) =>
      chooseToolCall config response pass.toolNames = .ok none →
        pass.toolNames = [] ∨ response.content.length ≤ 30

/-- A text that begins so is not empty. -/
theorem refusal_ne (text : String) : "处理出错: " ++ text ≠ "" := by
  intro empty
  have lengths := congrArg String.length empty
  rw [String.length_append] at lengths
  have : "处理出错: ".length = 6 := by decide
  have : "".length = 0 := by decide
  omega

namespace Agent

theorem turn_endChat (agent : Agent) (response : String) (memory : Except Fault Unit) :
    (agent.endChat response memory).turn = .none := by
  unfold endChat
  split
  · rfl
  · split <;> rfl

/-- Which response is kept does not matter to the agent, if there is one. -/
theorem endChat_of_nonempty (agent : Agent) {response other : String} (some : response ≠ "")
    (also : other ≠ "") (memory : Except Fault Unit) :
    agent.endChat response memory = agent.endChat other memory := by
  unfold endChat
  rw [if_neg some, if_neg also]

variable {config : AgentConfig} {agent : Agent} {pass : StreamPass} {message : String}

variable (config) in
/-- A chat turn begins at no iteration, or not at all. -/
theorem turn_startChat (agent : Agent) (idle : agent.turn = .none) (start : ChatStart) :
    (agent.startChat config start).turn = .none ∨
      (agent.startChat config start).turn = .chatting 0 := by
  have kept : ∀ after, agent.ensureChatInitialized config start.initialized = .ok after →
      after.turn = .none := by
    intro after ensured
    unfold ensureChatInitialized at ensured
    split at ensured
    · cases ensured
      exact idle
    · dsimp only at ensured
      split at ensured
      · cases initialized : start.initialized with
        | error fault =>
            rw [initialized] at ensured
            cases ensured
        | ok done =>
            rw [initialized] at ensured
            cases ensured
            exact idle
      · cases ensured
        exact idle
  unfold startChat
  cases ensured : agent.ensureChatInitialized config start.initialized with
  | error fault => exact .inl idle
  | ok after =>
      dsimp only
      cases start.memory with
      | error fault => exact .inl (kept after ensured)
      | ok stored => exact .inr rfl

theorem calledTool_of_observe_error {fault : Fault} (failed : pass.observe = .error fault) :
    agent.calledTool config (pass.plainPass message) = none := by
  unfold calledTool observe StreamPass.plainPass
  rw [failed]

theorem calledTool_of_no_client (seen : pass.observe = .ok ()) (alone : pass.answer = none) :
    agent.calledTool config (pass.plainPass message) = none := by
  unfold calledTool observe think StreamPass.plainPass
  rw [seen, alone]

theorem calledTool_of_fault {answer : StreamAnswer} {fault : Fault} (seen : pass.observe = .ok ())
    (answered : pass.answer = some answer) (failed : answer.plain = .error fault) :
    agent.calledTool config (pass.plainPass message) = none := by
  unfold calledTool observe think
  rw [StreamPass.client_plainPass answered, failed]
  unfold StreamPass.plainPass
  rw [seen]
  rfl

theorem calledTool_of_answered {response : LLMResponse} (seen : pass.observe = .ok ())
    (answered : pass.answer = some (.answered response)) {chosen : Except Fault (Option ToolCall)}
    (choice : chooseToolCall config response pass.toolNames = chosen) :
    agent.calledTool config (pass.plainPass message) =
      (chosen.toOption.bind id).map ToolCall.name := by
  have thought := StreamPass.think_of_answered config agent message answered
  unfold thoughtOf at thought
  rw [choice] at thought
  unfold calledTool observe
  dsimp only [StreamPass.plainPass] at thought ⊢
  rw [seen]
  dsimp only
  rw [thought]
  cases chosen with
  | error fault => rfl
  | ok chosen => cases chosen <;> rfl

end Agent

namespace ChatAgent

open Agent

variable {config : AgentConfig} (typeName : Fault → String)

/-- What a plain turn and a streamed one have come to is the same. -/
structure Alike (plain streamed : ChatAgent) : Prop where
  agent : plain.agent = streamed.agent
  toolCallsMade : plain.toolCallsMade = streamed.toolCallsMade
  results : List.Forall₂ ChatResult.Agrees plain.results streamed.results
  unstreamed : plain.streamTurn = none

variable {plain streamed : ChatAgent} {turn : StreamTurn}

/-- Both turns are over, or both go on. -/
def InStep (message : String) (made : Nat) (plain streamed : ChatAgent) : Prop :=
  Alike plain streamed ∧
    (plain.agent.turn = .none ∧ streamed.streamTurn = none ∨
      ∃ turn iterations, streamed.streamTurn = some turn ∧ turn.message = message ∧
        plain.agent.turn = .chatting iterations ∧ iterations ≤ made)

/-- Both turns end, with one error or with one response. -/
theorem inStep_finish {message : String} {made : Nat} (alike : Alike plain streamed)
    (isOver : streamed.streamTurn = none) (idle : streamed.agent.turn = .none)
    {response other : String} {error : Option String} (iterations : Nat)
    (memory : Except Fault Unit) (empty : response = "" ↔ other = "")
    (same : error = none → response = other) :
    InStep message made (plain.finish response iterations error memory)
      (streamed.finish other iterations error memory) := by
  obtain ⟨agentEq, madeEq, agree, unstreamed⟩ := alike
  have both := List.rel_append agree (List.Forall₂.cons
    (⟨rfl, madeEq, rfl, same⟩ : ChatResult.Agrees ⟨response, iterations, plain.toolCallsMade, error⟩
      ⟨other, iterations, streamed.toolCallsMade, error⟩) .nil)
  unfold finish
  by_cases kept : response = "" ∨ memory.isOk
  · have keptToo : other = "" ∨ memory.isOk := kept.imp_left empty.mp
    rw [if_pos kept, if_pos keptToo]
    exact ⟨⟨agentEq, madeEq, both, unstreamed⟩, .inl ⟨agentEq ▸ idle, isOver⟩⟩
  · have lost : ¬ (other = "" ∨ memory.isOk) := fun either => kept (either.imp_left empty.mpr)
    rw [if_neg kept, if_neg lost]
    exact ⟨⟨agentEq, madeEq, agree, unstreamed⟩, .inl ⟨agentEq ▸ idle, isOver⟩⟩

/-- The plain turn, in a pass that ends with an error. -/
theorem chatPass_of_error {c : ChatAgent} {iterations : Nat} {pass : Pass} {after : Agent}
    {fault : Fault} (goesOn : iterations < config.maxIterations)
    (reacted : c.agent.react config pass = (after, .error fault)) {called : Option String}
    (tool : c.agent.calledTool config pass = called) :
    c.chatPass config typeName iterations pass =
      if fault.isException then
        { c with
          agent := after.endChat ("处理出错: " ++ fault.text) pass.memory
          toolCallsMade := c.toolCallsMade ++ called.toList
        }.finish ("处理出错: " ++ errorMsg typeName fault) (iterations + 1)
          (some (errorMsg typeName fault)) pass.memory
      else
        { c with
          agent := after.endTurn after.status
          toolCallsMade := c.toolCallsMade ++ called.toList } := by
  unfold chatPass Agent.chatPass chatFailed
  rw [if_pos goesOn, if_pos goesOn, reacted, tool]
  dsimp only
  cases fault.isException <;> rfl

theorem inStep_failed {message : String} {made iterations : Nat} {pass : StreamPass}
    {after : Agent} {fault : Fault} (alike : Alike plain streamed)
    (goesOn : iterations < config.maxIterations)
    (reacted : plain.agent.react config (pass.plainPass message) = (after, .error fault))
    {called : Option String}
    (tool : plain.agent.calledTool config (pass.plainPass message) = called) :
    InStep message made (plain.chatPass config typeName iterations (pass.plainPass message))
      ({ streamed with
        agent := after
        toolCallsMade := streamed.toolCallsMade ++ called.toList
      }.streamFailed typeName turn (iterations + 1) fault pass.memory) := by
  rw [chatPass_of_error typeName goesOn reacted tool]
  obtain ⟨_, madeEq, agree, unstreamed⟩ := alike
  unfold streamFailed
  cases fault.isException with
  | false => exact ⟨⟨rfl, congrArg (· ++ called.toList) madeEq, agree, unstreamed⟩, .inl ⟨rfl, rfl⟩⟩
  | true =>
      have refused : (if turn.responseText = "" then "处理出错: " ++ errorMsg typeName fault
          else turn.responseText) ≠ "" := by
        split
        · exact refusal_ne _
        · assumption
      have ended : Alike
          { plain with
            agent := after.endChat ("处理出错: " ++ fault.text) pass.memory
            toolCallsMade := plain.toolCallsMade ++ called.toList }
          { streamed with
            agent := after.endChat _ pass.memory
            streamTurn := none
            toolCallsMade := streamed.toolCallsMade ++ called.toList } :=
        ⟨endChat_of_nonempty after (refusal_ne fault.text) refused pass.memory,
          congrArg (· ++ called.toList) madeEq, agree, unstreamed⟩
      exact inStep_finish ended rfl (turn_endChat after _ pass.memory) (iterations + 1) pass.memory
        (iff_of_false (refusal_ne _) refused) nofun

/-- Both turns end with an error before any tool call of the pass. -/
theorem inStep_failed_silent {message : String} {made iterations : Nat} {pass : StreamPass}
    {after : Agent} {fault : Fault} (alike : Alike plain streamed)
    (goesOn : iterations < config.maxIterations)
    (reacted : plain.agent.react config (pass.plainPass message) = (after, .error fault))
    (tool : plain.agent.calledTool config (pass.plainPass message) = none) :
    InStep message made (plain.chatPass config typeName iterations (pass.plainPass message))
      ({ streamed with agent := after }.streamFailed typeName turn (iterations + 1) fault
        pass.memory) := by
  have failed : InStep message made _ ({ streamed with
        agent := after
        toolCallsMade := streamed.toolCallsMade ++ []
      }.streamFailed typeName turn (iterations + 1) fault pass.memory) :=
    inStep_failed typeName alike goesOn reacted tool
  rw [List.append_nil] at failed
  exact failed

/-- Both turns end with a response. -/
theorem inStep_respond {message response : String} {made iterations : Nat} {pass : StreamPass}
    {after : Agent} {action : ActionResult} (alike : Alike plain streamed)
    (goesOn : iterations < config.maxIterations)
    (reacted : plain.agent.react config (pass.plainPass message) =
      (after, .ok (.respond response, action)))
    (tool : plain.agent.calledTool config (pass.plainPass message) = none) :
    InStep message made (plain.chatPass config typeName iterations (pass.plainPass message))
      ({ streamed with agent := after }.endStream response (iterations + 1) none pass.memory) := by
  obtain ⟨_, madeEq, agree, unstreamed⟩ := alike
  unfold chatPass Agent.chatPass
  rw [if_pos goesOn, if_pos goesOn, reacted, tool]
  dsimp only
  have ended : Alike
      { plain with
        agent := after.endChat response pass.memory
        toolCallsMade := plain.toolCallsMade ++ [] }
      { streamed with agent := after.endChat response pass.memory, streamTurn := none } :=
    ⟨rfl, (List.append_nil _).trans madeEq, agree, unstreamed⟩
  exact inStep_finish ended rfl (turn_endChat after response pass.memory) (iterations + 1)
    pass.memory Iff.rfl fun _ => rfl

/-- Both turns make a tool call. -/
theorem inStep_call {message : String} {made iterations : Nat} {pass : StreamPass}
    {call : ToolCall} (alike : Alike plain streamed) (goesOn : iterations < config.maxIterations)
    (counted : iterations ≤ made) (same : turn.message = message) {spoken : Agent}
    {conversation : List Message} {outcome : Except Fault ActionResult}
    (acted : act spoken.conversation call.name call.id pass.use = (conversation, outcome))
    (reacted : plain.agent.react config (pass.plainPass message) =
      ({ spoken with conversation },
        outcome.map fun action => (.toolCall call.id call.name, action)))
    (tool : plain.agent.calledTool config (pass.plainPass message) = some call.name) :
    InStep message (made + 1)
      (plain.chatPass config typeName iterations (pass.plainPass message))
      ({ streamed with agent := spoken }.streamAct typeName turn (iterations + 1) call pass) := by
  unfold streamAct
  dsimp only
  rw [acted]
  cases outcome with
  | error fault => exact inStep_failed typeName alike goesOn reacted tool
  | ok action =>
      obtain ⟨_, madeEq, agree, unstreamed⟩ := alike
      unfold chatPass Agent.chatPass
      rw [if_pos goesOn, if_pos goesOn, reacted, tool]
      refine ⟨⟨rfl, congrArg (· ++ [call.name]) madeEq, agree, unstreamed⟩, .inr ?_⟩
      exact ⟨_, iterations + 1, rfl, same, rfl, Nat.succ_le_succ counted⟩

theorem inStep_hear {message : String} {made iterations : Nat} {pass : StreamPass}
    {response : LLMResponse} (alike : Alike plain streamed)
    (goesOn : iterations < config.maxIterations) (counted : iterations ≤ made)
    (same : turn.message = message) (seen : pass.observe = .ok ())
    (answered : pass.answer = some (.answered response))
    (unprompted : chooseToolCall config response pass.toolNames = .ok none →
      pass.toolNames = [] ∨ response.content.length ≤ 30) :
    InStep message (made + 1)
      (plain.chatPass config typeName iterations (pass.plainPass message))
      ({ streamed with agent := pass.heardBy plain.agent }.hear config typeName turn
        (iterations + 1) response pass) := by
  have acts : ∀ (turn : StreamTurn) (call : ToolCall), turn.message = message →
      chooseToolCall config response pass.toolNames = .ok (some call) →
      InStep message (made + 1)
        (plain.chatPass config typeName iterations (pass.plainPass message))
        ({ streamed with agent := pass.spoken plain.agent response }.streamAct typeName turn
          (iterations + 1) call pass) := by
    intro turn call same chosen
    obtain ⟨⟨conversation, outcome⟩, acted⟩ : ∃ result,
        act (pass.spoken plain.agent response).conversation call.name call.id pass.use = result :=
      ⟨_, rfl⟩
    exact inStep_call typeName alike goesOn counted same acted
      (StreamPass.react_of_call seen answered chosen acted)
      (calledTool_of_answered seen answered chosen)
  unfold hear
  dsimp only
  cases calls : response.toolCalls with
  | cons call others =>
      apply acts turn call same
      unfold chooseToolCall
      rw [calls]
  | nil =>
      dsimp only
      cases chosen : chooseToolCall config response pass.toolNames with
      | error fault =>
          have uncalled : plain.agent.calledTool config (pass.plainPass message) = none :=
            calledTool_of_answered seen answered chosen
          exact inStep_failed_silent typeName alike goesOn
            (StreamPass.react_of_thought_error seen answered chosen) uncalled
      | ok choice =>
          cases choice with
          | some call => exact acts _ call same chosen
          | none =>
              unfold streamText
              dsimp only
              rw [if_neg (not_and_or.mpr ((unprompted chosen).imp not_not.mpr Nat.not_lt.mpr))]
              exact inStep_respond typeName alike goesOn
                (StreamPass.react_of_respond seen answered chosen)
                (calledTool_of_answered seen answered chosen)

theorem inStep_chatting {message : String} {made iterations : Nat} {pass : StreamPass}
    (alike : Alike plain streamed) (goesOn : iterations < config.maxIterations)
    (counted : iterations ≤ made) (same : turn.message = message)
    (unprompted : pass.Unprompted config) :
    InStep message (made + 1)
      (plain.chatPass config typeName iterations (pass.plainPass message))
      (streamed.streamPass config typeName turn iterations pass) := by
  unfold streamPass
  rw [if_pos goesOn, ← alike.agent]
  dsimp only
  cases seen : pass.observe with
  | error fault =>
      exact inStep_failed_silent typeName alike goesOn
        (react_of_observe_error config plain.agent seen) (calledTool_of_observe_error seen)
  | ok done =>
      dsimp only
      unfold StreamPass.Unprompted at unprompted
      cases answered : pass.answer with
      | none =>
          dsimp only
          rw [same]
          exact inStep_respond typeName alike goesOn
            (StreamPass.react_of_no_client seen answered) (calledTool_of_no_client seen answered)
      | some answer =>
          rw [answered] at unprompted
          dsimp only
          unfold receive
          cases answer with
          | badRequest text => exact unprompted.elim
          | failed fault =>
              exact inStep_failed_silent typeName alike goesOn
                (StreamPass.react_of_fault seen answered rfl)
                (calledTool_of_fault seen answered rfl)
          | answered response =>
              exact inStep_hear typeName alike goesOn counted same seen answered unprompted

/-- One pass keeps the turns in step. -/
theorem inStep_pass {message : String} {made : Nat} {pass : StreamPass}
    (inStep : InStep message made plain streamed) (below : made < config.maxIterations)
    (unprompted : pass.Unprompted config) :
    InStep message (made + 1)
      (plain.step config typeName (.plain (.pass (pass.plainPass message))))
      (streamed.step config typeName (.streamPass pass)) := by
  obtain ⟨alike, ⟨isOver, done⟩ | ⟨turn, iterations, streaming, same, chatting, counted⟩⟩ := inStep
  · have plainEq :
        plain.step config typeName (.plain (.pass (pass.plainPass message))) = plain := by
      obtain ⟨agent, streamTurn, toolCallsMade, results⟩ := plain
      obtain rfl : streamTurn = none := alike.unstreamed
      unfold step Agent.step
      dsimp only at isOver ⊢
      rw [isOver]
    have streamedEq : streamed.step config typeName (.streamPass pass) = streamed := by
      unfold step
      rw [done]
    rw [plainEq, streamedEq]
    exact ⟨alike, .inl ⟨isOver, done⟩⟩
  · have plainEq : plain.step config typeName (.plain (.pass (pass.plainPass message))) =
        plain.chatPass config typeName iterations (pass.plainPass message) := by
      unfold step
      rw [alike.unstreamed, chatting]
    have streamedEq : streamed.step config typeName (.streamPass pass) =
        streamed.streamPass config typeName turn iterations pass := by
      unfold step
      rw [streaming, ← alike.agent, chatting]
    rw [plainEq, streamedEq]
    exact inStep_chatting typeName alike (Nat.lt_of_le_of_lt counted below) counted same unprompted

/-- All passes of a turn, within the limit of iterations. -/
theorem inStep_passes {message : String} {made : Nat} {passes : List StreamPass}
    (inStep : InStep message made plain streamed)
    (unprompted : ∀ pass ∈ passes, pass.Unprompted config)
    (within : made + passes.length ≤ config.maxIterations) :
    InStep message (made + passes.length)
      (run (step config typeName) plain
        (passes.map fun pass => .plain (.pass (pass.plainPass message))))
      (run (step config typeName) streamed (passes.map .streamPass)) := by
  induction passes generalizing made plain streamed with
  | nil => exact inStep
  | cons pass rest ih =>
      rw [List.length_cons] at within ⊢
      have below : made < config.maxIterations := by omega
      have first := inStep_pass typeName inStep below (unprompted pass List.mem_cons_self)
      have later := ih first (fun other member => unprompted other (List.mem_cons_of_mem _ member))
        (by omega)
      rw [Nat.add_right_comm, Nat.add_assoc] at later
      exact later

/-- The turns begin alike. -/
theorem inStep_start {c : ChatAgent} (idle : c.agent.turn = .none) (between : c.streamTurn = none)
    (start : ChatStart) :
    InStep start.message 0 (c.step config typeName (.plain (.startChat start)))
      (c.step config typeName (.startStream start)) := by
  have plainEq : c.step config typeName (.plain (.startChat start)) =
      { c with agent := c.agent.startChat config start, toolCallsMade := [] } := by
    unfold step Agent.step
    rw [between, idle]
  have streamedEq : c.step config typeName (.startStream start) = c.startStream config start := by
    unfold step
    rw [between, idle]
  rw [plainEq, streamedEq]
  have agree : List.Forall₂ ChatResult.Agrees c.results c.results :=
    List.forall₂_same.mpr fun result _ => ⟨rfl, rfl, rfl, fun _ => rfl⟩
  refine ⟨⟨rfl, rfl, agree, between⟩, ?_⟩
  unfold startStream
  rcases turn_startChat config c.agent idle start with isOver | begun
  · exact .inl ⟨isOver, if_pos isOver⟩
  · refine .inr ⟨{ message := start.message }, 0, if_neg ?_, rfl, begun, Nat.le_refl 0⟩
    rw [begun]
    nofun

def weatherPasses : List StreamPass :=
  [answeringStream ["weather"] { content := "", toolCalls := [⟨"call_1", "weather"⟩] } "sunny",
    answeringStream ["weather"] { content := "sunny", toolCalls := [] } ""]

example :
    (run (step plainConfig fun _ => "Exception") {}
      (.startStream plainStart :: weatherPasses.map .streamPass)).results =
        [⟨"sunny", 2, ["weather"], none⟩] := by
  decide

end ChatAgent

end YouMi.Core
