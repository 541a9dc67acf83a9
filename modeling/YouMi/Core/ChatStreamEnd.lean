import YouMi.Core.ChatStreamAgreement

/-!
# How a streamed turn comes to its end

A pass ends the turn, makes a tool call, draws a reminder, or repeats a rejected call.
Three reminders at most come without a tool call between them, and a rejected call is
repeated once in an iteration.
-/

namespace YouMi.Core

open YouMi.Library

def Message.isUser : Message → Bool
  | .user _ => true
  | _ => false

/-- How many messages of the conversation are the user's, or reminders. -/
def Agent.userCount (agent : Agent) : Nat := agent.conversation.countP Message.isUser

/-- The tool messages of a call are not the user's. -/
theorem countP_isUser_act (conversation : List Message) (name toolCallId : String)
    (use : ToolUse) :
    (act conversation name toolCallId use).1.countP Message.isUser =
      conversation.countP Message.isUser := by
  obtain ⟨_, ⟨contents, rfl, final⟩, _⟩ := act_answers conversation name toolCallId use
  rw [final, List.countP_append, Nat.add_eq_left, List.countP_eq_zero]
  intro message member
  obtain ⟨content, _, rfl⟩ := List.mem_map.mp member
  exact Bool.false_ne_true

theorem countP_isUser_withoutTools (conversation : List Message) :
    (conversation.filter Message.withoutTools).countP Message.isUser =
      conversation.countP Message.isUser := by
  rw [List.countP_filter]
  refine List.countP_congr fun message _ => ?_
  cases message <;> simp [Message.isUser, Message.withoutTools]

namespace ChatAgent

/-- What one pass of a streamed turn comes to. -/
inductive PassEnd (config : AgentConfig) (c : ChatAgent) (turn : StreamTurn) (iterations : Nat)
    (final : ChatAgent) : Prop
  | ended (done : final.streamTurn = none) (users : final.agent.userCount = c.agent.userCount)
      (made : c.toolCallsMade.length ≤ final.toolCallsMade.length)
  | retry (first : turn.retrying = false) (goesOn : iterations < config.maxIterations)
      (streaming : final.streamTurn = some { turn with retrying := true })
      (chatting : final.agent.turn = .chatting iterations)
      (users : final.agent.userCount = c.agent.userCount)
      (made : final.toolCallsMade = c.toolCallsMade)
  | called {next : StreamTurn} (goesOn : iterations < config.maxIterations)
      (streaming : final.streamTurn = some next) (retrying : next.retrying = false)
      (noTool : next.consecutiveNoTool = 0)
      (chatting : final.agent.turn = .chatting (iterations + 1))
      (users : final.agent.userCount = c.agent.userCount)
      (made : final.toolCallsMade.length = c.toolCallsMade.length + 1)
  | reminded {next : StreamTurn} (goesOn : iterations < config.maxIterations)
      (streaming : final.streamTurn = some next) (retrying : next.retrying = false)
      (noTool : next.consecutiveNoTool = turn.consecutiveNoTool + 1)
      (few : turn.consecutiveNoTool + 1 ≤ 3)
      (chatting : final.agent.turn = .chatting (iterations + 1))
      (users : final.agent.userCount = c.agent.userCount + 1)
      (made : final.toolCallsMade = c.toolCallsMade)

variable {config : AgentConfig} (typeName : Fault → String) {turn : StreamTurn} {iterations : Nat}

theorem finish_eq (c : ChatAgent) (response : String) (count : Nat) (error : Option String)
    (memory : Except Fault Unit) :
    ∃ results, c.finish response count error memory = { c with results } := by
  unfold finish
  split
  · exact ⟨_, rfl⟩
  · exact ⟨c.results, rfl⟩

theorem userCount_of_same {before after : Agent}
    (same : after.conversation = before.conversation) : after.userCount = before.userCount :=
  congrArg (List.countP Message.isUser) same

theorem conversation_endChat (agent : Agent) (response : String) (memory : Except Fault Unit) :
    (agent.endChat response memory).conversation = agent.conversation := by
  unfold Agent.endChat
  split
  · rfl
  · cases memory <;> rfl

/-- The turn is over with the agent as it is now. -/
def Over (now final : ChatAgent) : Prop :=
  final.streamTurn = none ∧ final.agent.conversation = now.agent.conversation ∧
    final.toolCallsMade = now.toolCallsMade

theorem over_endStream (now : ChatAgent) (response : String) (count : Nat)
    (error : Option String) (memory : Except Fault Unit) :
    Over now (now.endStream response count error memory) := by
  unfold endStream
  obtain ⟨results, finished⟩ := finish_eq
    { now with agent := now.agent.endChat response memory, streamTurn := none } response count
    error memory
  rw [finished]
  exact ⟨rfl, conversation_endChat now.agent response memory, rfl⟩

theorem over_streamFailed (now : ChatAgent) (turn : StreamTurn) (count : Nat) (fault : Fault)
    (memory : Except Fault Unit) :
    Over now (now.streamFailed typeName turn count fault memory) := by
  unfold streamFailed
  split
  · exact over_endStream now _ count _ memory
  · exact ⟨rfl, rfl, rfl⟩

variable {c now final : ChatAgent}

theorem passEnd_of_over (isOver : Over now final) (users : now.agent.userCount = c.agent.userCount)
    (made : c.toolCallsMade.length ≤ now.toolCallsMade.length) :
    PassEnd config c turn iterations final := by
  obtain ⟨done, same, madeEq⟩ := isOver
  exact .ended done ((userCount_of_same same).trans users) (madeEq ▸ made)

variable (now) (goesOn : iterations < config.maxIterations)
  (users : now.agent.userCount = c.agent.userCount) (made : now.toolCallsMade = c.toolCallsMade)

include goesOn users made

theorem passEnd_streamAct (next : StreamTurn) (call : ToolCall) (pass : StreamPass) :
    PassEnd config c turn iterations
      (now.streamAct typeName next (iterations + 1) call pass) := by
  have kept := (countP_isUser_act now.agent.conversation call.name call.id pass.use).trans users
  have more : (now.toolCallsMade ++ [call.name]).length = c.toolCallsMade.length + 1 := by
    rw [List.length_append, made]
    rfl
  unfold streamAct
  dsimp only
  cases acted : act now.agent.conversation call.name call.id pass.use with
  | mk conversation outcome =>
      rw [acted] at kept
      cases outcome with
      | error fault =>
          exact passEnd_of_over (over_streamFailed typeName _ next _ fault pass.memory) kept
            (more ▸ Nat.le_succ _)
      | ok action => exact .called goesOn rfl rfl rfl rfl kept more

theorem passEnd_streamText (next : StreamTurn) (pass : StreamPass)
    (noTool : next.consecutiveNoTool = turn.consecutiveNoTool) :
    PassEnd config c turn iterations (now.streamText next (iterations + 1) pass) := by
  have ended : PassEnd config c turn iterations
      (now.endStream next.responseText (iterations + 1) none pass.memory) :=
    passEnd_of_over (over_endStream now _ _ none pass.memory) users (made ▸ Nat.le_refl _)
  unfold streamText
  dsimp only
  split
  · split
    · exact ended
    · split
      · rename_i few
        refine .reminded goesOn rfl rfl (congrArg (· + 1) noTool) (noTool ▸ few) rfl ?_ made
        unfold Agent.userCount at users ⊢
        exact (List.countP_append ..).trans (congrArg (· + 1) users)
      · exact ended
  · exact ended

theorem passEnd_hear {response : LLMResponse} (pass : StreamPass) :
    PassEnd config c turn iterations
      (now.hear config typeName turn (iterations + 1) response pass) := by
  have spoken : (now.agent.append response.rawMessage).userCount = c.agent.userCount := by
    unfold Agent.userCount at users ⊢
    exact (List.countP_append ..).trans users
  let heard : ChatAgent := { now with agent := now.agent.append response.rawMessage }
  unfold hear
  dsimp only
  split
  · exact passEnd_streamAct typeName heard goesOn spoken made _ _ pass
  · cases chooseToolCall config response pass.toolNames with
    | error fault =>
        exact passEnd_of_over (over_streamFailed typeName _ _ _ fault pass.memory) spoken
          (made ▸ Nat.le_refl _)
    | ok choice =>
        cases choice with
        | some call => exact passEnd_streamAct typeName heard goesOn spoken made _ call pass
        | none => exact passEnd_streamText heard goesOn spoken made _ pass rfl

omit goesOn users made

variable (config turn iterations) in
theorem passEnd_streamPass (c : ChatAgent) (pass : StreamPass)
    (chatting : c.agent.turn = .chatting iterations) :
    PassEnd config c turn iterations (c.streamPass config typeName turn iterations pass) := by
  have failed : ∀ (now : ChatAgent) (fault : Fault), now.agent.userCount = c.agent.userCount →
      now.toolCallsMade = c.toolCallsMade → PassEnd config c turn iterations
        (now.streamFailed typeName turn (iterations + 1) fault pass.memory) :=
    fun now fault users made => passEnd_of_over
      (over_streamFailed typeName now turn _ fault pass.memory) users (made ▸ Nat.le_refl _)
  unfold streamPass
  split
  · rename_i goesOn
    dsimp only
    cases pass.observe with
    | error fault => exact failed _ fault rfl rfl
    | ok done =>
        dsimp only
        cases pass.answer with
        | none => exact passEnd_of_over (over_endStream _ _ _ none pass.memory) rfl (Nat.le_refl _)
        | some answer =>
            dsimp only
            unfold receive
            cases answer with
            | failed fault => exact failed _ fault rfl rfl
            | answered response =>
                have heard : (pass.heardBy c.agent).userCount = c.agent.userCount := rfl
                exact passEnd_hear typeName { c with agent := pass.heardBy c.agent } goesOn heard
                  rfl pass
            | badRequest text =>
                dsimp only
                split
                · exact failed _ _ rfl rfl
                · rename_i first
                  exact .retry (eq_false_of_ne_true first) goesOn rfl chatting
                    (countP_isUser_withoutTools c.agent.conversation) rfl
  · exact passEnd_of_over (over_endStream c _ _ none pass.memory) rfl (Nat.le_refl _)

/-- Where a streamed turn is after so many passes, of which it has made so many at most. -/
def Bounded (config : AgentConfig) (users passes : Nat) (c : ChatAgent) : Prop :=
  match c.streamTurn, c.agent.turn with
  | none, _ => c.agent.userCount ≤ users + 3 * (c.toolCallsMade.length + 1)
  | some turn, .chatting iterations =>
      c.agent.userCount ≤ users + 3 * c.toolCallsMade.length + turn.consecutiveNoTool ∧
        turn.consecutiveNoTool ≤ 3 ∧ passes ≤ 2 * iterations + turn.retrying.toNat ∧
        iterations ≤ config.maxIterations ∧
        (turn.retrying = true → iterations < config.maxIterations)
  | some _, _ => False

theorem bounded_pass {users passes : Nat} (bounded : Bounded config users passes c)
    (pass : StreamPass) :
    Bounded config users (passes + 1) (c.step config typeName (.streamPass pass)) := by
  unfold Bounded at bounded
  cases streaming : c.streamTurn with
  | none =>
      have same : c.step config typeName (.streamPass pass) = c := by
        unfold step
        rw [streaming]
      rw [streaming] at bounded
      rw [same]
      unfold Bounded
      rw [streaming]
      exact bounded
  | some turn =>
      cases chatting : c.agent.turn with
      | none => rw [streaming, chatting] at bounded; exact bounded.elim
      | running => rw [streaming, chatting] at bounded; exact bounded.elim
      | chatting iterations =>
          have stepEq : c.step config typeName (.streamPass pass) =
              c.streamPass config typeName turn iterations pass := by
            unfold step
            rw [streaming, chatting]
          rw [streaming, chatting] at bounded
          rw [stepEq]
          obtain ⟨users, few, counted, within, retried⟩ := bounded
          unfold Bounded
          cases passEnd_streamPass config typeName turn iterations c pass chatting with
          | ended done kept more =>
              rw [done]
              dsimp only
              omega
          | retry first goesOn streaming chatting kept made =>
              rw [streaming, chatting, kept, made]
              rw [first] at counted
              exact ⟨users, few, Nat.succ_le_succ counted, within, fun _ => goesOn⟩
          | called goesOn streaming retrying noTool chatting kept made =>
              rw [streaming, chatting]
              dsimp only
              rw [retrying, noTool, kept, made]
              have : turn.retrying.toNat ≤ 1 := Bool.toNat_le _
              exact ⟨by omega, by omega, by rw [Bool.toNat_false]; omega, goesOn, nofun⟩
          | reminded goesOn streaming retrying noTool enough chatting kept made =>
              rw [streaming, chatting]
              dsimp only
              rw [retrying, noTool, kept, made]
              have : turn.retrying.toNat ≤ 1 := Bool.toNat_le _
              exact ⟨by omega, enough, by rw [Bool.toNat_false]; omega, goesOn, nofun⟩

theorem bounded_passes {users passes : Nat} (bounded : Bounded config users passes c)
    (rest : List StreamPass) :
    Bounded config users (passes + rest.length)
      (run (step config typeName) c (rest.map .streamPass)) := by
  induction rest generalizing passes c with
  | nil => exact bounded
  | cons pass rest ih =>
      have later := ih (bounded_pass typeName bounded pass)
      rw [Nat.add_right_comm] at later
      exact later

theorem bounded_start (c : ChatAgent) (idle : c.agent.turn = .none)
    (between : c.streamTurn = none) (start : ChatStart) :
    let begun := c.step config typeName (.startStream start)
    Bounded config begun.agent.userCount 0 begun := by
  have stepEq : c.step config typeName (.startStream start) = c.startStream config start := by
    unfold step
    rw [between, idle]
  rw [stepEq]
  unfold startStream Bounded
  dsimp only
  rcases Agent.turn_startChat config c.agent idle start with isOver | begun
  · rw [if_pos isOver]
    exact Nat.le_add_right _ _
  · rw [if_neg (begun ▸ nofun), begun]
    exact ⟨Nat.le_refl _, Nat.zero_le 3, Nat.zero_le _, Nat.zero_le _, nofun⟩

/-- A plan that calls no tool, and then short answers. -/
def plannedPasses : List StreamPass :=
  answeringStream ["weather"]
      { content := "First I am going to look at the weather.", toolCalls := [] } "" ::
    List.replicate 4 (answeringStream ["weather"] { content := "Done.", toolCalls := [] } "")

end ChatAgent

end YouMi.Core
