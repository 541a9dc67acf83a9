import YouMi.Core.ChatStream
import YouMi.Core.ReactLaws

/-!
# Streamed passes and plain ones

A pass of a streamed turn does to the conversation what a pass of `chat_turn` that meets
the same does, and may add a reminder.  Only the recovery from a rejected call differs:
it takes the tool messages out of the conversation, and with them every open exchange.
-/

namespace YouMi.Core

open YouMi.Library

/-- The answer, as a call without a stream gives it. -/
def StreamAnswer.plain : StreamAnswer → Except Fault LLMResponse
  | .answered response => .ok response
  | .badRequest text => .error (.exception text)
  | .failed fault => .error fault

namespace StreamPass

/-- The pass of `chat_turn` that meets the same. -/
def plainPass (pass : StreamPass) (message : String) : Pass where
  compacts := pass.compacts
  observe := pass.observe
  client :=
    match pass.answer with
    | none => .absent message
    | some answer =>
        .present
          { beforeModelCall := .ok .pass
            streamFails := false
            answer := answer.plain
            afterModelCall := .ok .pass
            toolNames := pass.toolNames }
  use := pass.use
  memory := pass.memory

/-- The model has been called, for a summary perhaps and for an answer. -/
def heardBy (pass : StreamPass) (agent : Agent) : Agent :=
  (agent.callModel pass.compacts.toNat).callModel 1

variable {config : AgentConfig} {agent : Agent} {pass : StreamPass} {message : String}

theorem client_plainPass {answer : StreamAnswer} (answered : pass.answer = some answer) :
    (pass.plainPass message).client =
      .present
        { beforeModelCall := .ok .pass
          streamFails := false
          answer := answer.plain
          afterModelCall := .ok .pass
          toolNames := pass.toolNames } := by
  unfold plainPass
  rw [answered]

theorem react_of_no_client (seen : pass.observe = .ok ()) (alone : pass.answer = none) :
    agent.react config (pass.plainPass message) =
      (agent.callModel pass.compacts.toNat,
        .ok (.respond ("[无LLM客户端] 收到: " ++ message), {})) := by
  unfold Agent.react Agent.observe Agent.think plainPass
  rw [seen, alone]

theorem react_of_fault {answer : StreamAnswer} {fault : Fault} (seen : pass.observe = .ok ())
    (answered : pass.answer = some answer) (failed : answer.plain = .error fault) :
    agent.react config (pass.plainPass message) = (pass.heardBy agent, .error fault) := by
  unfold Agent.react Agent.observe Agent.think
  rw [client_plainPass answered, failed]
  unfold plainPass
  rw [seen]
  rfl

variable {response : LLMResponse}

/-- The response of the model has been appended. -/
def spoken (pass : StreamPass) (agent : Agent) (response : LLMResponse) : Agent :=
  (pass.heardBy agent).append response.rawMessage

variable (config agent message) in
theorem think_of_answered (answered : pass.answer = some (.answered response)) :
    (agent.callModel pass.compacts.toNat).think config (pass.plainPass message).client =
      (pass.spoken agent response, Agent.thoughtOf config response pass.toolNames) := by
  rw [client_plainPass answered]
  unfold Agent.think Agent.thoughtOf
  dsimp only [Agent.callLLM, StreamAnswer.plain]
  cases chooseToolCall config response pass.toolNames with
  | error fault => rfl
  | ok chosen => cases chosen <;> rfl

variable (seen : pass.observe = .ok ()) (answered : pass.answer = some (.answered response))

include seen answered

theorem react_of_thought_error {fault : Fault}
    (chosen : chooseToolCall config response pass.toolNames = .error fault) :
    agent.react config (pass.plainPass message) = (pass.spoken agent response, .error fault) := by
  have thought := think_of_answered config agent message answered
  unfold Agent.thoughtOf at thought
  rw [chosen] at thought
  unfold Agent.react Agent.observe
  dsimp only [plainPass] at thought ⊢
  rw [seen]
  dsimp only
  rw [thought]

theorem react_of_respond (chosen : chooseToolCall config response pass.toolNames = .ok none) :
    agent.react config (pass.plainPass message) =
      (pass.spoken agent response, .ok (.respond response.content, {})) := by
  have thought := think_of_answered config agent message answered
  unfold Agent.thoughtOf at thought
  rw [chosen] at thought
  unfold Agent.react Agent.observe
  dsimp only [plainPass] at thought ⊢
  rw [seen]
  dsimp only
  rw [thought]

theorem react_of_call {call : ToolCall}
    (chosen : chooseToolCall config response pass.toolNames = .ok (some call))
    {conversation : List Message} {outcome : Except Fault ActionResult}
    (acted : act (pass.spoken agent response).conversation call.name call.id pass.use =
      (conversation, outcome)) :
    agent.react config (pass.plainPass message) =
      ({ pass.spoken agent response with conversation },
        outcome.map fun action => (.toolCall call.id call.name, action)) := by
  have thought := think_of_answered config agent message answered
  unfold Agent.thoughtOf at thought
  rw [chosen] at thought
  unfold Agent.react Agent.observe
  dsimp only [plainPass] at thought ⊢
  rw [seen]
  dsimp only
  rw [thought]
  dsimp only
  rw [acted]
  cases outcome <;> rfl

end StreamPass

namespace ChatAgent

open Agent

variable (config : AgentConfig) (typeName : Fault → String)

@[simp]
theorem agent_finish (c : ChatAgent) (response : String) (iterations : Nat)
    (error : Option String) (memory : Except Fault Unit) :
    (c.finish response iterations error memory).agent = c.agent := by
  unfold finish
  split <;> rfl

theorem extends_endStream (c : ChatAgent) (response : String) (iterations : Nat)
    (error : Option String) (memory : Except Fault Unit) :
    Extends c.agent (c.endStream response iterations error memory).agent := by
  unfold endStream
  rw [agent_finish]
  exact extends_endChat c.agent response memory

theorem extends_streamFailed (c : ChatAgent) (turn : StreamTurn) (iterations : Nat)
    (fault : Fault) (memory : Except Fault Unit) :
    Extends c.agent (c.streamFailed typeName turn iterations fault memory).agent := by
  unfold streamFailed
  split
  · exact extends_endStream c _ iterations _ memory
  · exact extends_endTurn c.agent _

theorem extends_streamText (c : ChatAgent) (turn : StreamTurn) (iterations : Nat)
    (pass : StreamPass) : Extends c.agent (c.streamText turn iterations pass).agent := by
  unfold streamText
  dsimp only
  split
  · split
    · exact extends_endStream c _ iterations _ pass.memory
    · split
      · exact ⟨rfl, [_], rfl⟩
      · exact extends_endStream c _ iterations _ pass.memory
  · exact extends_endStream c _ iterations _ pass.memory

/-- A tool call goes into the conversation as `act` puts it there. -/
theorem extends_streamAct (c : ChatAgent) (turn : StreamTurn) (iterations : Nat)
    (call : ToolCall) (pass : StreamPass) {conversation : List Message}
    {outcome : Except Fault ActionResult}
    (acted : act c.agent.conversation call.name call.id pass.use = (conversation, outcome)) :
    Extends { c.agent with conversation }
      (c.streamAct typeName turn iterations call pass).agent := by
  unfold streamAct
  dsimp only
  rw [acted]
  cases outcome with
  | error fault => exact extends_streamFailed typeName _ turn iterations fault pass.memory
  | ok action => exact extends_of_same rfl rfl

variable {config}

/-- What is heard is appended, and then acted on or replied to. -/
theorem extends_hear (c : ChatAgent) (turn : StreamTurn) (iterations : Nat)
    {response : LLMResponse} {pass : StreamPass} (message : String) (agent : Agent)
    (heard : c.agent = pass.heardBy agent) (seen : pass.observe = .ok ())
    (answered : pass.answer = some (.answered response)) :
    Extends (agent.react config (pass.plainPass message)).1
      (c.hear config typeName turn iterations response pass).agent := by
  have acts : ∀ (turn : StreamTurn) (call : ToolCall),
      chooseToolCall config response pass.toolNames = .ok (some call) →
      Extends (agent.react config (pass.plainPass message)).1
        ({ c with agent := c.agent.append response.rawMessage }.streamAct typeName turn iterations
          call pass).agent := by
    intro turn call chosen
    obtain ⟨⟨conversation, outcome⟩, acted⟩ : ∃ result,
        act (pass.spoken agent response).conversation call.name call.id pass.use = result :=
      ⟨_, rfl⟩
    rw [StreamPass.react_of_call seen answered chosen acted]
    have spoken : c.agent.append response.rawMessage = pass.spoken agent response :=
      congrArg (append · response.rawMessage) heard
    rw [spoken]
    exact extends_streamAct typeName { c with agent := pass.spoken agent response } turn
      iterations call pass acted
  have spoken : c.agent.append response.rawMessage = pass.spoken agent response :=
    congrArg (append · response.rawMessage) heard
  unfold hear
  dsimp only
  cases calls : response.toolCalls with
  | cons call others =>
      apply acts
      unfold chooseToolCall
      rw [calls]
  | nil =>
      dsimp only
      cases chosen : chooseToolCall config response pass.toolNames with
      | error fault =>
          rw [StreamPass.react_of_thought_error seen answered chosen, spoken]
          exact extends_streamFailed typeName _ _ iterations fault pass.memory
      | ok choice =>
          cases choice with
          | some call => exact acts _ call chosen
          | none =>
              rw [StreamPass.react_of_respond seen answered chosen, spoken]
              exact extends_streamText _ _ iterations pass

end ChatAgent

/-- A rejected call that will be made again. -/
def StreamPass.Recovers (pass : StreamPass) (turn : StreamTurn) : Prop :=
  turn.retrying = false ∧ pass.observe = .ok () ∧ ∃ text, pass.answer = some (.badRequest text)

namespace ChatAgent

open Agent

variable {config : AgentConfig} (typeName : Fault → String)

/-- A pass that does not recover is one of `chat_turn`, up to a reminder. -/
theorem extends_streamPass (c : ChatAgent) {turn : StreamTurn} {iterations : Nat}
    {pass : StreamPass} (goesOn : iterations < config.maxIterations)
    (final : ¬ pass.Recovers turn) :
    Extends (c.agent.react config (pass.plainPass turn.message)).1
      (c.streamPass config typeName turn iterations pass).agent := by
  unfold streamPass
  rw [if_pos goesOn]
  dsimp only
  cases seen : pass.observe with
  | error fault =>
      rw [react_of_observe_error config c.agent seen]
      exact extends_streamFailed typeName _ turn _ fault pass.memory
  | ok done =>
      dsimp only
      cases answered : pass.answer with
      | none =>
          rw [StreamPass.react_of_no_client seen answered]
          exact extends_endStream _ _ _ none pass.memory
      | some answer =>
          dsimp only
          unfold receive
          cases answer with
          | failed fault =>
              rw [StreamPass.react_of_fault seen answered rfl]
              exact extends_streamFailed typeName _ turn _ fault pass.memory
          | answered response =>
              exact extends_hear typeName _ turn _ turn.message c.agent rfl seen answered
          | badRequest text =>
              rw [StreamPass.react_of_fault seen answered rfl]
              dsimp only
              split
              · exact extends_streamFailed typeName _ turn _ _ pass.memory
              · rename_i first
                exact (final ⟨eq_false_of_ne_true first, seen, text, answered⟩).elim

/-- A pass that recovers calls the model, and leaves no tool messages. -/
theorem streamPass_of_recovers (c : ChatAgent) {turn : StreamTurn} {iterations : Nat}
    {pass : StreamPass} (goesOn : iterations < config.maxIterations)
    (recovers : pass.Recovers turn) :
    let after := (c.streamPass config typeName turn iterations pass).agent
    after.calls = (pass.heardBy c.agent).calls ∧
      after.conversation = c.agent.conversation.filter Message.withoutTools := by
  obtain ⟨first, seen, text, answered⟩ := recovers
  unfold streamPass receive
  rw [if_pos goesOn]
  dsimp only
  rw [seen, answered]
  dsimp only
  rw [first, if_neg Bool.false_ne_true]
  exact ⟨rfl, rfl⟩

end ChatAgent

theorem paired_withoutTools (conversation : List Message) :
    Paired (conversation.filter Message.withoutTools) := by
  apply Line.paired_of_quiet
  intro line member
  obtain ⟨message, kept, rfl⟩ := List.mem_map.mp member
  have plain := (List.mem_filter.mp kept).2
  cases message with
  | system content => exact .inl rfl
  | user content => exact .inl rfl
  | tool toolCallId content => cases plain
  | assistant content toolCalls =>
      cases toolCalls with
      | nil => exact .inr rfl
      | cons call others => cases plain

namespace StreamPass

/-- The model is called, for a summary or for an answer. -/
def CallsModel (pass : StreamPass) : Prop :=
  pass.compacts = true ∨ pass.observe = .ok () ∧ pass.answer ≠ none

/-- The pass appends a response whose exchange stays open. -/
def LeavesOpen (config : AgentConfig) (pass : StreamPass) : Prop :=
  (pass.plainPass "").LeavesOpen config

variable {config : AgentConfig} {pass : StreamPass}

theorem leavesOpen_plainPass_iff (message : String) :
    (pass.plainPass message).LeavesOpen config ↔ pass.LeavesOpen config := by
  unfold LeavesOpen Pass.LeavesOpen
  cases alone : pass.answer with
  | some answer => rw [client_plainPass alone, client_plainPass alone]; rfl
  | none =>
      have unheard : ∀ text, (pass.plainPass text).client.heard = none := by
        intro text
        unfold plainPass
        rw [alone]
        rfl
      simp only [unheard, reduceCtorEq, false_and, and_false, exists_false]

theorem callsModel_plainPass_iff (message : String) :
    (pass.plainPass message).CallsModel ↔ pass.CallsModel := by
  unfold CallsModel Pass.CallsModel
  refine or_congr Iff.rfl (and_congr Iff.rfl ?_)
  cases alone : pass.answer with
  | none =>
      refine iff_of_false ?_ fun apart => apart rfl
      rintro ⟨modelTurn, _, same, _⟩
      unfold plainPass at same
      rw [alone] at same
      cases same
  | some answer =>
      rw [client_plainPass alone]
      exact iff_of_true ⟨_, .pass, rfl, rfl, nofun⟩ nofun

theorem not_leavesOpen_of_recovers {turn : StreamTurn} (recovers : pass.Recovers turn) :
    ¬ pass.LeavesOpen config := by
  obtain ⟨_, _, text, answered⟩ := recovers
  rintro ⟨response, toolNames, _, heard, _⟩
  rw [client_plainPass answered] at heard
  cases heard

end StreamPass

namespace ChatAgent

open Agent

variable (config : AgentConfig) (typeName : Fault → String)

/-- Another pass of a streamed turn will run. -/
def InStream (c : ChatAgent) : Prop :=
  match c.streamTurn, c.agent.turn with
  | some _, .chatting iterations => iterations < config.maxIterations
  | _, _ => False

variable {config} in
theorem inStream_iff {c : ChatAgent} :
    c.InStream config ↔ ∃ turn iterations, c.streamTurn = some turn ∧
      c.agent.turn = .chatting iterations ∧ iterations < config.maxIterations := by
  unfold InStream
  constructor
  · intro inStream
    split at inStream
    · rename_i turn iterations streaming chatting
      exact ⟨turn, iterations, streaming, chatting, inStream⟩
    · exact inStream.elim
  · rintro ⟨turn, iterations, streaming, chatting, goesOn⟩
    rw [streaming, chatting]
    exact goesOn

/-- The event has the model called. -/
def CallsModel (c : ChatAgent) : ChatEvent → Prop
  | .plain event => c.streamTurn = none ∧ c.agent.CallsModel config event
  | .streamPass pass => c.InStream config ∧ pass.CallsModel
  | .startStream _ | .leave => False

/-- The event is a call that is rejected, and will be made again. -/
def Recovers (c : ChatAgent) (pass : StreamPass) : Prop :=
  c.InStream config ∧ ∃ turn, c.streamTurn = some turn ∧ pass.Recovers turn

/-- Whether an exchange is open after the event, given whether one was open before it. -/
def opens (c : ChatAgent) (event : ChatEvent) (opened : Prop) : Prop :=
  match event, c.streamTurn with
  | .plain event, none => c.agent.opens config event opened
  | .startStream start, none => c.agent.opens config (.startChat start) opened
  | .streamPass pass, some _ =>
      opened ∧ ¬ c.Recovers config pass ∨ c.InStream config ∧ pass.LeavesOpen config
  | _, _ => opened

/-- The model is never called while an exchange of the conversation is open. -/
def NeverCallsOpen : ChatAgent → Prop → List ChatEvent → Prop :=
  NeverShownOpen (step config typeName) (CallsModel config) (opens config)

/-- What an event does to the conversation, and what it shows to the model. -/
structure ChatLaw (c : ChatAgent) (event : ChatEvent) (final : Agent) : Prop where
  opens : ∀ opened, (opened ↔ ¬ Line.Paired c.agent.lines) →
    (c.opens config event opened ↔ ¬ Line.Paired final.lines)
  calls : ∃ count, final.calls = c.agent.calls ++ List.replicate count c.agent.conversation ∧
    (c.CallsModel config event ↔ count ≠ 0)

variable {config} {c : ChatAgent} {event : ChatEvent} {final : Agent}

theorem chatLaw_of_extends (extended : Extends c.agent final)
    (uncalled : ¬ c.CallsModel config event)
    (unopened : ∀ opened, c.opens config event opened ↔ opened) : ChatLaw config c event final := by
  obtain ⟨callsEq, texts, conversationEq⟩ := extended
  refine ⟨fun opened openedIff => (unopened opened).trans (openedIff.trans (not_congr ?_)), 0, ?_,
    iff_of_false uncalled fun some => some rfl⟩
  · have finalEq : final.lines = c.agent.lines ++ transcript (texts.map .user) := by
      rw [← transcript_append, ← conversationEq]
    rw [finalEq]
    exact (Line.paired_append_remarks _ (remarks_users texts)).symm
  · rw [callsEq]
    exact (List.append_nil c.agent.calls).symm

/-- Between streamed turns an event acts on the agent alone. -/
theorem chatLaw_of_stepLaw {plain : Agent.Event} (law : StepLaw config c.agent plain final)
    (called : c.CallsModel config event ↔ c.agent.CallsModel config plain)
    (opened : ∀ opened, c.opens config event opened ↔ c.agent.opens config plain opened) :
    ChatLaw config c event final := by
  obtain ⟨⟨move, moved, opensIff⟩, count, callsEq, calls⟩ := law
  exact ⟨fun before openedIff => (opened before).trans
    ((opensIff before).trans (moved.opens_iff openedIff)), count, callsEq, called.trans calls⟩


theorem agent_chatPass (c : ChatAgent) (iterations : Nat) (pass : Pass) :
    (c.chatPass config typeName iterations pass).agent =
      c.agent.chatPass config iterations pass := by
  unfold chatPass
  dsimp only
  split
  · split
    · split
      · exact agent_finish _ _ _ _ _
      · rfl
    · rfl
    · exact agent_finish _ _ _ _ _
  · exact agent_finish _ _ _ _ _

/-- Outside a streamed turn the agent takes its steps as before. -/
theorem agent_step_plain (between : c.streamTurn = none) (event : Agent.Event) :
    (c.step config typeName (.plain event)).agent = c.agent.step config event := by
  unfold step
  rw [between]
  cases event with
  | setUp outcome => rfl
  | destroy outcome => rfl
  | startRun start => rfl
  | startChat start => cases c.agent.turn <;> rfl
  | pass pass =>
      cases chatting : c.agent.turn with
      | none => rfl
      | running => rfl
      | chatting iterations =>
          refine (agent_chatPass typeName c iterations pass).trans ?_
          unfold Agent.step
          rw [chatting]

theorem agent_startStream (between : c.agent.turn = .none) (start : ChatStart) :
    (c.startStream config start).agent = c.agent.step config (.startChat start) := by
  unfold Agent.step
  rw [between]
  rfl

theorem chatLaw_plain (event : Agent.Event) :
    ChatLaw config c (.plain event) (c.step config typeName (.plain event)).agent := by
  cases between : c.streamTurn with
  | none =>
      rw [agent_step_plain typeName between event]
      refine chatLaw_of_stepLaw (stepLaw c.agent event) (and_iff_right between) fun opened => ?_
      unfold opens
      rw [between]
  | some turn =>
      have same : c.step config typeName (.plain event) = c := by
        unfold step
        rw [between]
        cases event <;> rfl
      rw [same]
      refine chatLaw_of_extends (Extends.refl c.agent) ?_ fun opened => ?_
      · rintro ⟨none, _⟩
        rw [between] at none
        cases none
      · unfold opens
        rw [between]

theorem chatLaw_startStream (start : ChatStart) :
    ChatLaw config c (.startStream start) (c.step config typeName (.startStream start)).agent := by
  cases between : c.streamTurn with
  | none =>
      have stepEq : (c.step config typeName (.startStream start)).agent =
          c.agent.step config (.startChat start) := by
        unfold step
        rw [between]
        cases turn : c.agent.turn with
        | none => exact agent_startStream turn start
        | running => unfold Agent.step; rw [turn]
        | chatting iterations => unfold Agent.step; rw [turn]
      rw [stepEq]
      refine chatLaw_of_stepLaw (stepLaw c.agent (.startChat start)) Iff.rfl fun opened => ?_
      unfold opens
      rw [between]
  | some turn =>
      have same : c.step config typeName (.startStream start) = c := by
        unfold step
        rw [between]
      rw [same]
      refine chatLaw_of_extends (Extends.refl c.agent) id fun opened => ?_
      unfold opens
      rw [between]

/-- A pass in the loop of a streamed turn. -/
theorem chatLaw_inStream {turn : StreamTurn} {iterations : Nat} {pass : StreamPass}
    (streaming : c.streamTurn = some turn) (chatting : c.agent.turn = .chatting iterations)
    (goesOn : iterations < config.maxIterations) :
    ChatLaw config c (.streamPass pass)
      (c.streamPass config typeName turn iterations pass).agent := by
  have inStream : c.InStream config :=
    inStream_iff.mpr ⟨turn, iterations, streaming, chatting, goesOn⟩
  have opensEq : ∀ opened, c.opens config (.streamPass pass) opened ↔
      opened ∧ ¬ pass.Recovers turn ∨ pass.LeavesOpen config := by
    intro opened
    unfold opens
    rw [streaming]
    have recovers : c.Recovers config pass ↔ pass.Recovers turn := by
      constructor
      · rintro ⟨_, other, same, recovers⟩
        cases streaming.symm.trans same
        exact recovers
      · exact fun recovers => ⟨inStream, turn, streaming, recovers⟩
    exact or_congr (and_congr Iff.rfl (not_congr recovers)) (and_iff_right inStream)
  have calledIff : c.CallsModel config (.streamPass pass) ↔ pass.CallsModel := and_iff_right inStream
  by_cases recovers : pass.Recovers turn
  · obtain ⟨callsEq, conversationEq⟩ := streamPass_of_recovers typeName c goesOn recovers
    refine ⟨fun opened _ => (opensEq opened).trans ?_, pass.compacts.toNat + 1, ?_, ?_⟩
    · have paired :
          Line.Paired (c.streamPass config typeName turn iterations pass).agent.lines := by
        unfold lines
        rw [conversationEq]
        exact paired_withoutTools c.agent.conversation
      refine iff_of_false ?_ fun unpaired => unpaired paired
      rintro (⟨_, final⟩ | leftOpen)
      · exact final recovers
      · exact StreamPass.not_leavesOpen_of_recovers recovers leftOpen
    · rw [callsEq, List.replicate_add, ← List.append_assoc]
      rfl
    · obtain ⟨_, seen, text, answered⟩ := recovers
      refine iff_of_true (calledIff.mpr (.inr ⟨seen, ?_⟩)) (Nat.succ_ne_zero _)
      rw [answered]
      nofun
  · have extended := extends_streamPass typeName c goesOn recovers
    have inLoop : c.agent.InLoop config := by
      unfold InLoop
      rw [chatting]
      exact goesOn
    have law : StepLaw config c.agent (.pass (pass.plainPass turn.message)) _ :=
      stepLaw_of_pass inLoop rfl rfl extended
    refine chatLaw_of_stepLaw law (calledIff.trans ?_) fun opened => (opensEq opened).trans ?_
    · exact (pass.callsModel_plainPass_iff turn.message).symm.trans (and_iff_right inLoop).symm
    · refine or_congr (and_iff_left recovers) ?_
      exact (pass.leavesOpen_plainPass_iff turn.message).symm.trans (and_iff_right inLoop).symm

theorem extends_of_not_inStream (pass : StreamPass) (beyond : ¬ c.InStream config) :
    Extends c.agent (c.step config typeName (.streamPass pass)).agent := by
  unfold step
  cases streaming : c.streamTurn with
  | none => exact Extends.refl c.agent
  | some turn =>
      cases chatting : c.agent.turn with
      | none => exact Extends.refl c.agent
      | running => exact Extends.refl c.agent
      | chatting iterations =>
          have atLimit : ¬ iterations < config.maxIterations :=
            fun below => beyond (inStream_iff.mpr ⟨turn, iterations, streaming, chatting, below⟩)
          dsimp only
          unfold streamPass
          rw [if_neg atLimit]
          exact extends_endStream c _ iterations none pass.memory

theorem chatLaw_streamPass (pass : StreamPass) :
    ChatLaw config c (.streamPass pass) (c.step config typeName (.streamPass pass)).agent := by
  by_cases inStream : c.InStream config
  · obtain ⟨turn, iterations, streaming, chatting, goesOn⟩ := inStream_iff.mp inStream
    have stepEq : c.step config typeName (.streamPass pass) =
        c.streamPass config typeName turn iterations pass := by
      unfold step
      rw [streaming, chatting]
    rw [stepEq]
    exact chatLaw_inStream typeName streaming chatting goesOn
  · have extended := extends_of_not_inStream typeName pass inStream
    refine chatLaw_of_extends extended (fun both => inStream both.1) fun opened => ?_
    unfold opens
    cases c.streamTurn with
    | none => rfl
    | some turn =>
        refine (or_iff_left fun both => inStream both.1).trans (and_iff_left ?_)
        exact fun recovers => inStream recovers.1

variable (config) in
theorem chatLaw (c : ChatAgent) (event : ChatEvent) :
    ChatLaw config c event (c.step config typeName event).agent := by
  cases event with
  | plain event => exact chatLaw_plain typeName event
  | startStream start => exact chatLaw_startStream typeName start
  | streamPass pass => exact chatLaw_streamPass typeName pass
  | leave =>
      refine chatLaw_of_extends ?_ id fun opened => Iff.rfl
      unfold step
      cases c.streamTurn with
      | none => exact Extends.refl c.agent
      | some turn => exact extends_endTurn c.agent c.agent.status

end ChatAgent

/-- A streamed pass in which the model answers at once, and its tool returns the result. -/
def answeringStream (toolNames : List String) (response : LLMResponse) (result : String) :
    StreamPass :=
  { compacts := false
    observe := .ok ()
    answer := some (.answered response)
    toolNames := toolNames
    use := smoothUse toolNames result
    unrun := []
    allDone := false
    memory := .ok () }

def plainStart : ChatStart :=
  { message := "weather and time", initialized := .ok (), memory := .ok () }

-- Two tools are asked for at once; the call that shows it is rejected, and made again.
example :
    (run (ChatAgent.step plainConfig fun _ => "HTTPStatusError") {}
      [.startStream plainStart,
        .streamPass (answeringStream ["weather", "time"]
          { content := "", toolCalls := [⟨"call_1", "weather"⟩, ⟨"call_2", "time"⟩] } "sunny"),
        .streamPass { answeringStream [] { content := "", toolCalls := [] } "" with
          answer := some (.badRequest "400 Bad Request") },
        .streamPass (answeringStream [] { content := "sunny", toolCalls := [] } "")]
    ).agent.calls.map List.length = [1, 3, 1] := by
  decide

end YouMi.Core
