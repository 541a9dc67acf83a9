import YouMi.Memory.Compaction
import YouMi.Library.Exchanges

/-!
# What compaction keeps

The system messages and the most recent others are kept.  The cut is made by count,
so it can fall between an assistant message with tool calls and the tool messages
that follow it.
-/

namespace YouMi.Memory

open YouMi.Library YouMi.Core

/-- The ids of the tool messages a conversation begins with. -/
def leadingReplies : List ChatMessage → List String
  | [] => []
  | message :: rest =>
      if message.role = .tool then message.toolCallId :: leadingReplies rest else []

/-- Each assistant message with tool calls is directly followed by its tool messages: one for
each of its calls, and no other. -/
def Grouped (messages : List ChatMessage) : Prop :=
  ∀ before asking after, messages = before ++ asking :: after → asking.callIds ≠ [] →
    Line.Answered asking.callIds (leadingReplies after)

theorem grouped_nil : Grouped [] := by
  intro before asking after place
  cases before <;> cases place

theorem grouped_cons {message : ChatMessage} {rest : List ChatMessage}
    (answered : message.callIds ≠ [] → Line.Answered message.callIds (leadingReplies rest))
    (grouped : Grouped rest) : Grouped (message :: rest) := by
  intro before asking after place
  cases before with
  | nil =>
      obtain ⟨rfl, rfl⟩ := List.cons.inj place
      exact answered
  | cons first before =>
      obtain ⟨-, place⟩ := List.cons.inj place
      exact grouped before asking after place

/-- The conversation has this assistant message, and this tool message among the tool messages
that directly follow it. -/
structure Follows (messages before between : List ChatMessage) (asking reply : ChatMessage) :
    Prop where
  place : ∃ after, messages = before ++ asking :: (between ++ reply :: after)
  asks : asking.callIds ≠ []
  tools : ∀ message ∈ between, message.role = .tool
  answers : reply.role = .tool

/-- How many of the messages besides those of the system are gone. -/
def goneCount (messages result : List ChatMessage) : Nat :=
  (nonSystem messages).length - (nonSystem result).length

/-- What compaction should keep. -/
structure Keeps (keepRecent : Int) (messages result : List ChatMessage) : Prop where
  /-- All system messages, in order. -/
  systems : systemMessages messages <+: result
  /-- Of the others the last ones, in order, as many as asked for at least. -/
  recent : nonSystem result <:+ nonSystem messages
  enough : (nonSystem messages).drop ((nonSystem messages).length - keepRecent.toNat) <:+
    nonSystem result
  /-- An assistant message is gone exactly if the tool messages are that answer it. -/
  whole : ∀ before between asking reply, Follows messages before between asking reply →
    reply.toolCallId ∈ asking.callIds →
    ((nonSystem before).length < goneCount messages result ↔
      (nonSystem (before ++ asking :: between)).length < goneCount messages result)

/-- The first message that is kept is a tool message that follows an assistant message with
tool calls. -/
def CutsExchange (compactor : ContextCompactor) (messages : List ChatMessage) : Prop :=
  ∃ before between asking reply, Follows messages before between asking reply ∧
    (nonSystem (before ++ asking :: between)).length = compactor.cut messages

variable {compactor : ContextCompactor} {messages result : List ChatMessage}

/-! ## What is returned -/

theorem nonSystem_append (first second : List ChatMessage) :
    nonSystem (first ++ second) = nonSystem first ++ nonSystem second := List.filter_append ..

theorem nonSystem_systemMessages (messages : List ChatMessage) :
    nonSystem (systemMessages messages) = [] := by
  refine List.filter_eq_nil_iff.mpr fun message member => ?_
  simp [(List.mem_filter.mp member).2]

theorem nonSystem_of_others {others : List ChatMessage}
    (each : ∀ message ∈ others, message ∈ nonSystem messages) : nonSystem others = others :=
  List.filter_eq_self.mpr fun message member => (List.mem_filter.mp (each message member)).2

/-- A compaction returns the system messages, possibly a summary, and the messages after the
cut. -/
theorem maybeCompact_of_compacts (compacts : compactor.Compacts messages)
    (returned : (compactor.maybeCompact messages).2 = .ok result) :
    ∃ inserted, (∀ message ∈ inserted, message.isSystem = true) ∧
      result = systemMessages messages ++ (inserted ++
        (nonSystem messages).drop (compactor.cut messages)) := by
  unfold ContextCompactor.maybeCompact at returned
  rw [if_pos compacts.1] at returned
  dsimp only at returned
  rw [if_neg (Int.not_le.mpr compacts.2)] at returned
  split at returned
  · cases returned
  · rename_i summary _
    refine ⟨[summaryMessage summary], ?_, (Except.ok.inj returned).symm⟩
    intro message member
    rw [List.mem_singleton.mp member]
    rfl
  · exact ⟨[], nofun, (Except.ok.inj returned).symm⟩

theorem nonSystem_of_compacts (compacts : compactor.Compacts messages)
    (returned : (compactor.maybeCompact messages).2 = .ok result) :
    nonSystem result = (nonSystem messages).drop (compactor.cut messages) := by
  obtain ⟨inserted, system, rfl⟩ := maybeCompact_of_compacts compacts returned
  have no_inserted : nonSystem inserted = [] :=
    List.filter_eq_nil_iff.mpr fun message member => by simp [system message member]
  rw [nonSystem_append, nonSystem_append, nonSystem_systemMessages, no_inserted]
  exact nonSystem_of_others fun message member => List.mem_of_mem_drop member

theorem cut_le (compactor : ContextCompactor) (messages : List ChatMessage) :
    compactor.cut messages ≤ (nonSystem messages).length := by
  unfold ContextCompactor.cut sliceAt
  split
  · omega
  · exact Nat.min_le_right _ _

/-- The cut leaves as many messages as are to be kept. -/
theorem cut_le_sub (compacts : compactor.Compacts messages) :
    compactor.cut messages ≤ (nonSystem messages).length - compactor.keepRecent.toNat ∨
      compactor.keepRecent ≤ 0 := by
  have enough := compacts.2
  unfold ContextCompactor.cut sliceAt
  split
  · omega
  · exact .inr (by omega)

theorem goneCount_of_compacts (compacts : compactor.Compacts messages)
    (returned : (compactor.maybeCompact messages).2 = .ok result) :
    goneCount messages result = compactor.cut messages := by
  unfold goneCount
  rw [nonSystem_of_compacts compacts returned, List.length_drop]
  have bound := cut_le compactor messages
  omega

/-! ## Exchanges -/

theorem role_of_asks {asking : ChatMessage} (asks : asking.callIds ≠ []) :
    asking.role = .assistant := by
  by_contra other
  unfold ChatMessage.callIds at asks
  exact asks (if_neg other)

theorem nonSystem_tools {between : List ChatMessage}
    (tools : ∀ message ∈ between, message.role = .tool) : nonSystem between = between := by
  refine List.filter_eq_self.mpr fun message member => ?_
  unfold ChatMessage.isSystem
  rw [tools message member]
  rfl

/-- Before the reply there are, besides what was before the request, the request and the
tool messages between. -/
theorem length_before_reply {before between : List ChatMessage} {asking : ChatMessage}
    (asks : asking.callIds ≠ []) (tools : ∀ message ∈ between, message.role = .tool) :
    (nonSystem (before ++ asking :: between)).length =
      (nonSystem before).length + 1 + between.length := by
  have kept : nonSystem (asking :: between) = asking :: between := by
    unfold nonSystem
    rw [List.filter_cons_of_pos]
    · exact congrArg (asking :: ·) (nonSystem_tools tools)
    · unfold ChatMessage.isSystem
      rw [role_of_asks asks]
      rfl
  rw [nonSystem_append, kept, List.length_append, List.length_cons]
  omega

theorem mem_leadingReplies {between : List ChatMessage}
    (tools : ∀ message ∈ between, message.role = .tool) {reply : ChatMessage}
    (answers : reply.role = .tool) (after : List ChatMessage) :
    reply.toolCallId ∈ leadingReplies (between ++ reply :: after) := by
  induction between with
  | nil =>
      rw [List.nil_append, leadingReplies, if_pos answers]
      exact List.mem_cons_self
  | cons message rest ih =>
      rw [List.cons_append, leadingReplies, if_pos (tools message List.mem_cons_self)]
      exact List.mem_cons_of_mem _
        (ih fun other member => tools other (List.mem_cons_of_mem _ member))

/-- In a grouped conversation the tool messages that directly follow a request answer it. -/
theorem reply_answers (grouped : Grouped messages) {before between : List ChatMessage}
    {asking reply : ChatMessage} (follows : Follows messages before between asking reply) :
    reply.toolCallId ∈ asking.callIds := by
  obtain ⟨after, place⟩ := follows.place
  exact (grouped before asking _ place follows.asks).2 _
    (mem_leadingReplies follows.tools follows.answers after)

/-- A cut between a request and one of its tool messages is in front of one of them. -/
theorem cutsExchange_of_between {before between : List ChatMessage} {asking reply : ChatMessage}
    (follows : Follows messages before between asking reply)
    (gone : (nonSystem before).length < compactor.cut messages)
    (kept : compactor.cut messages ≤ (nonSystem (before ++ asking :: between)).length) :
    CutsExchange compactor messages := by
  rw [length_before_reply follows.asks follows.tools] at kept
  obtain ⟨after, place⟩ := follows.place
  by_cases last : compactor.cut messages = (nonSystem before).length + 1 + between.length
  · refine ⟨before, between, asking, reply, follows, ?_⟩
    rw [length_before_reply follows.asks follows.tools, last]
  · obtain ⟨index, index_eq⟩ : ∃ index, compactor.cut messages =
        (nonSystem before).length + 1 + index := ⟨_, (Nat.add_sub_of_le gone).symm⟩
    have within : index < between.length := by omega
    have split : between = between.take index ++ between[index] :: between.drop (index + 1) := by
      rw [List.getElem_cons_drop, List.take_append_drop]
    have first_tools : ∀ message ∈ between.take index, message.role = .tool :=
      fun message member => follows.tools message (List.mem_of_mem_take member)
    refine ⟨before, between.take index, asking, between[index],
      ⟨⟨between.drop (index + 1) ++ reply :: after, ?_⟩, follows.asks, first_tools,
        follows.tools _ (List.getElem_mem within)⟩, ?_⟩
    · rw [place]
      conv_lhs => rw [split]
      simp only [List.append_assoc, List.cons_append]
    · rw [length_before_reply follows.asks first_tools, List.length_take, index_eq]
      omega

/-- No exchange is torn exactly if the cut is not within one. -/
theorem whole_iff (grouped : Grouped messages) :
    (∀ before between asking reply, Follows messages before between asking reply →
      reply.toolCallId ∈ asking.callIds →
      ((nonSystem before).length < compactor.cut messages ↔
        (nonSystem (before ++ asking :: between)).length < compactor.cut messages)) ↔
      ¬CutsExchange compactor messages := by
  constructor
  · rintro whole ⟨before, between, asking, reply, follows, at_cut⟩
    have same := whole before between asking reply follows (reply_answers grouped follows)
    rw [at_cut] at same
    rw [length_before_reply follows.asks follows.tools] at at_cut
    have gone : (nonSystem before).length < compactor.cut messages := by omega
    exact Nat.lt_irrefl _ (same.mp gone)
  · intro uncut before between asking reply follows _
    constructor
    · intro gone
      by_contra kept
      exact uncut (cutsExchange_of_between follows gone (Nat.not_lt.mp kept))
    · intro gone
      rw [length_before_reply follows.asks follows.tools] at gone
      omega

/--
What a compaction returns for a grouped conversation keeps what it should exactly
if the first message after the cut is not one of the tool messages that follow an
assistant message with tool calls.
-/
theorem maybeCompact_keeps_iff (compactor : ContextCompactor)
    (messages result : List ChatMessage) (grouped : Grouped messages)
    (compacts : compactor.Compacts messages)
    (returned : (compactor.maybeCompact messages).2 = .ok result) :
    Keeps compactor.keepRecent messages result ↔ ¬CutsExchange compactor messages := by
  rw [← whole_iff grouped]
  have gone := goneCount_of_compacts compacts returned
  constructor
  · intro keeps
    rw [← gone]
    exact keeps.whole
  · intro whole
    refine ⟨?_, ?_, ?_, ?_⟩
    · obtain ⟨inserted, _, shape⟩ := maybeCompact_of_compacts compacts returned
      exact ⟨_, shape.symm⟩
    · rw [nonSystem_of_compacts compacts returned]
      exact List.drop_suffix _ _
    · rw [nonSystem_of_compacts compacts returned]
      rcases cut_le_sub compacts with early | none_asked
      · exact List.drop_suffix_drop_left _ early
      · rw [Int.toNat_of_nonpos none_asked, Nat.sub_zero, List.drop_length]
        exact List.nil_suffix
    · rw [gone]
      exact whole

/-- An exchange that is compacted as a whole. -/
theorem exchange_compacted_whole :
    let compactor : ContextCompactor :=
      { maxTokens := 1, threshold := 0, keepRecent := 1, llmCall := none,
        prompt := fun _ _ => .ok "" }
    let asking : ChatMessage := { role := .assistant, toolCalls := some [⟨"c", "{}"⟩] }
    let messages : List ChatMessage :=
      [asking, { role := .tool, toolCallId := "c" }, { role := .user, content := some "go on" }]
    Keeps 1 messages [{ role := .user, content := some "go on" }] ↔
      ¬CutsExchange compactor messages := by
  intro compactor asking messages
  have grouped : Grouped messages :=
    grouped_cons (fun _ => by decide) (grouped_cons (fun asks => absurd rfl asks)
      (grouped_cons (fun asks => absurd rfl asks) grouped_nil))
  exact maybeCompact_keeps_iff compactor messages _ grouped ⟨by decide, by decide⟩ rfl

/-- With one message to keep, the reply is kept without the request. -/
theorem reply_kept_without_request :
    let compactor : ContextCompactor :=
      { maxTokens := 1, threshold := 0, keepRecent := 1, llmCall := none,
        prompt := fun _ _ => .ok "" }
    let asking : ChatMessage := { role := .assistant, toolCalls := some [⟨"c", "{}"⟩] }
    let reply : ChatMessage := { role := .tool, toolCallId := "c" }
    Grouped [asking, reply] ∧ (compactor.maybeCompact [asking, reply]).2 = .ok [reply] ∧
      ¬Keeps 1 [asking, reply] [reply] := by
  intro compactor asking reply
  refine ⟨grouped_cons (fun _ => by decide) (grouped_cons (fun asks => absurd rfl asks)
    grouped_nil), rfl, ?_⟩
  intro keeps
  have same := keeps.whole [] [] asking reply
    ⟨⟨[], rfl⟩, by decide, nofun, rfl⟩ (by decide)
  exact absurd (same.mp (by decide)) (by decide)

end YouMi.Memory
