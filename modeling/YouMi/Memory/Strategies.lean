import YouMi.Memory.Compaction
import Mathlib.Data.List.Infix

/-!
# Memory strategies

The three strategies of `memory/strategies`: what each keeps of the messages it is
given, what it hands out as context, and what it does when the session ends.  A call
of the model may answer, throw what `except Exception` catches, or be cancelled, which
passes through.
-/

namespace YouMi.Memory

open YouMi.Core YouMi.Python

/--
A dictionary with a role and a text.  `number` is its place among the messages that were
recorded, which tells apart dictionaries with the same entries; nothing reads it, and a
message that a strategy writes has none.
-/
structure StrategyMessage where
  role : String
  content : String
  number : Option Nat := none
  deriving DecidableEq

/-- `items[-count:]`. -/
def lastItems {α : Type} (count : Int) (items : List α) : List α :=
  items.drop (sliceAt items.length (-count))

/-- `items[:-count]`. -/
def olderItems {α : Type} (count : Int) (items : List α) : List α :=
  items.take (sliceAt items.length (-count))

/-- The last items, as many as the limit says, of a list that has grown past it. -/
def limited {α : Type} (limit : Int) (items : List α) : List α :=
  if limit < items.length then lastItems limit items else items

/-- The limit leaves a list of the length whole; `items[-0:]` is the whole list. -/
def Whole (limit : Int) (length : Nat) : Prop := limit = 0 ∨ (length : Int) ≤ limit

instance (limit : Int) (length : Nat) : Decidable (Whole limit length) :=
  inferInstanceAs (Decidable (_ ∨ _))

/-- What a call of the model on a prompt ends in. -/
abbrev LLMCall := String → Except Fault String

/-! ## The full strategy -/

structure FullMemoryStrategy where
  maxMessages : Int := 200
  messages : List StrategyMessage := []

namespace FullMemoryStrategy

def onMessage (s : FullMemoryStrategy) (message : StrategyMessage) : FullMemoryStrategy :=
  { s with messages := limited s.maxMessages (s.messages ++ [message]) }

def getContext (s : FullMemoryStrategy) : List StrategyMessage := s.messages

end FullMemoryStrategy

/-! ## The summary strategy -/

def defaultSummaryPrompt (conversation : String) : String :=
  "请将以下对话历史压缩为一段简洁的摘要。\n要求:\n- 保留关键信息、用户意图和重要结论\n- 去除冗余的中间过程\n" ++
    "- 摘要长度不超过原文的 30%\n- 使用与对话相同的语言\n\n对话历史:\n" ++ conversation ++
    "\n\n请输出摘要:"

structure SummaryMemoryStrategy where
  bufferSize : Int := 10
  summaryInterval : Int := 20
  /-- `summary_prompt.format(conversation=…)`. -/
  summaryPrompt : String → Except Fault String := fun text => .ok (defaultSummaryPrompt text)
  maxTotal : Int := 200
  /-- Whether there is a model to call. -/
  llm : Bool
  messages : List StrategyMessage := []
  summary : Option String := none

namespace SummaryMemoryStrategy

/-- The summary that a context begins with, if it has a text. -/
def summaryMessages (summary : Option String) : List StrategyMessage :=
  match summary with
  | none => []
  | some text =>
      if text = "" then [] else [{ role := "system", content := "[历史对话摘要]\n" ++ text }]

/-- The messages that are handed out as they are. -/
def recent (s : SummaryMemoryStrategy) : List StrategyMessage := lastItems s.bufferSize s.messages

def getContext (s : SummaryMemoryStrategy) : List StrategyMessage :=
  summaryMessages s.summary ++ s.recent

/-- The text to summarise, which begins with the summary there is. -/
def conversationText (s : SummaryMemoryStrategy) (toSummarize : List StrategyMessage) : String :=
  let text := "\n".intercalate (toSummarize.map fun m => m.role ++ ": " ++ m.content)
  match s.summary with
  | none => text
  | some summary =>
      if summary = "" then text else "[之前的摘要]\n" ++ summary ++ "\n\n[新增对话]\n" ++ text

/-- What comes of the prompt for some messages and of the model's answer to it. -/
def summarise (s : SummaryMemoryStrategy) (llmCall : LLMCall)
    (toSummarize : List StrategyMessage) : Except Fault (Option String) :=
  match s.summaryPrompt (s.conversationText toSummarize) with
  | .error fault => .error fault
  | .ok prompt =>
      match llmCall prompt with
      | .ok answer => .ok (some answer)
      | .error fault => if fault.isException then .ok s.summary else .error fault

/-- `_generate_summary`, from where it calls the model; `kept` are the messages left. -/
def summariseTo (s : SummaryMemoryStrategy) (llmCall : LLMCall)
    (toSummarize kept : List StrategyMessage) : SummaryMemoryStrategy × Except Fault Unit :=
  match s.summarise llmCall toSummarize with
  | .error fault => (s, .error fault)
  | .ok summary => ({ s with summary := summary, messages := kept }, .ok ())

/-- What becomes of a summary: it has a text, it has none, the call fails, or nothing comes
back because the prompt does not format or the call is cancelled. -/
inductive Outcome where
  | adopted
  | empty
  | failed
  | interrupted
  deriving DecidableEq

def outcome (s : SummaryMemoryStrategy) (llmCall : LLMCall)
    (toSummarize : List StrategyMessage) : Outcome :=
  match s.summaryPrompt (s.conversationText toSummarize) with
  | .error _ => .interrupted
  | .ok prompt =>
      match llmCall prompt with
      | .ok answer => if answer = "" then .empty else .adopted
      | .error fault => if fault.isException then .failed else .interrupted

def generateSummary (s : SummaryMemoryStrategy) (llmCall : LLMCall) (force : Bool) :
    SummaryMemoryStrategy × Except Fault Unit :=
  if ¬s.llm then (s, .ok ())
  else if ¬force ∧ (s.messages.length : Int) ≤ s.bufferSize then (s, .ok ())
  else if force then s.summariseTo llmCall s.messages []
  else
    s.summariseTo llmCall (olderItems s.bufferSize s.messages) (lastItems s.bufferSize s.messages)

def onMessage (s : SummaryMemoryStrategy) (message : StrategyMessage) (llmCall : LLMCall) :
    SummaryMemoryStrategy × Except Fault Unit :=
  let s := { s with messages := limited s.maxTotal (s.messages ++ [message]) }
  if s.llm ∧ s.summaryInterval ≤ s.messages.length then s.generateSummary llmCall false
  else (s, .ok ())

def onSessionEnd (s : SummaryMemoryStrategy) (llmCall : LLMCall) :
    SummaryMemoryStrategy × Except Fault Unit :=
  if s.llm ∧ s.messages ≠ [] then s.generateSummary llmCall true else (s, .ok ())

/-! ### What comes of a summary -/

variable {s : SummaryMemoryStrategy} {llmCall : LLMCall}
  {toSummarize kept : List StrategyMessage}

/-- The model answers a text to the prompt for some messages. -/
def Answers (s : SummaryMemoryStrategy) (llmCall : LLMCall) (toSummarize : List StrategyMessage)
    (answer : String) : Prop :=
  ∃ prompt, s.summaryPrompt (s.conversationText toSummarize) = .ok prompt ∧
    llmCall prompt = .ok answer ∧ answer ≠ ""

/-- A summary is adopted, or an empty one replaces the one before, or that one stays, or
nothing happens but that a fault is passed on. -/
theorem summariseTo_cases (s : SummaryMemoryStrategy) (llmCall : LLMCall)
    (toSummarize kept : List StrategyMessage) :
    (s.outcome llmCall toSummarize = .adopted ∧ ∃ answer, s.Answers llmCall toSummarize answer ∧
        s.summariseTo llmCall toSummarize kept =
          ({ s with summary := some answer, messages := kept }, .ok ())) ∨
      (s.outcome llmCall toSummarize = .empty ∧ s.summariseTo llmCall toSummarize kept =
        ({ s with summary := some "", messages := kept }, .ok ())) ∨
      (s.outcome llmCall toSummarize = .failed ∧ s.summariseTo llmCall toSummarize kept =
        ({ s with messages := kept }, .ok ())) ∨
      (s.outcome llmCall toSummarize = .interrupted ∧
        ∃ fault, s.summariseTo llmCall toSummarize kept = (s, .error fault)) := by
  unfold summariseTo summarise outcome Answers
  cases prompted : s.summaryPrompt (s.conversationText toSummarize) with
  | error fault => exact .inr (.inr (.inr ⟨rfl, fault, rfl⟩))
  | ok prompt =>
      cases answered : llmCall prompt with
      | ok answer =>
          by_cases empty : answer = ""
          · subst empty
            exact .inr (.inl (by simp [answered]))
          · exact .inl (by simp [answered, empty])
      | error fault =>
          cases caught : fault.isException with
          | true => exact .inr (.inr (.inl (by simp [answered, caught])))
          | false => exact .inr (.inr (.inr (by simp [answered, caught])))

theorem Answers.unique {first second : String} (one : s.Answers llmCall toSummarize first)
    (other : s.Answers llmCall toSummarize second) : first = second := by
  obtain ⟨prompt, prompted, answered, _⟩ := one
  obtain ⟨prompt', prompted', answered', _⟩ := other
  rw [prompted] at prompted'
  cases prompted'
  rw [answered] at answered'
  cases answered'
  rfl

/-- A model that answers a text is one whose answer is adopted. -/
theorem outcome_of_answers {answer : String} (answers : s.Answers llmCall toSummarize answer) :
    s.outcome llmCall toSummarize = .adopted := by
  obtain ⟨prompt, prompted, answered, some_text⟩ := answers
  unfold outcome
  simp only [prompted, answered, if_neg some_text]

/-- The messages that are not kept are let go except where nothing comes back. -/
theorem messages_summariseTo :
    (s.summariseTo llmCall toSummarize kept).1.messages =
      if s.outcome llmCall toSummarize = .interrupted then s.messages else kept := by
  rcases s.summariseTo_cases llmCall toSummarize kept with
    ⟨outcome, _, _, result⟩ | ⟨outcome, result⟩ | ⟨outcome, result⟩ | ⟨outcome, _, result⟩
  all_goals
    rw [result, outcome]
    rfl

end SummaryMemoryStrategy

/-! ## The strategy with a long and a short term -/

def defaultLongTermKeywords : List String :=
  ["记住", "remember", "偏好", "prefer", "以后", "always", "never", "永远", "务必", "important",
    "重要", "决策", "conclusion", "结论", "总结", "规则", "rule", "规范", "standard", "约定"]

def defaultClassifyPrompt (content : String) : String :=
  "判断以下对话内容是否包含需要长期记忆的信息。\n\n长期记忆的标准:\n" ++
    "- 用户的偏好或习惯 (如 \"我喜欢...\", \"以后请...\")\n- 重要的决策或结论\n" ++
    "- 需要跨会话记住的规则或约定\n- 项目相关的核心知识\n\n" ++
    "如果不是以上类型，则归为短期记忆 (当前会话的操作细节)。\n\n对话内容:\n" ++ content ++
    "\n\n请只回答 \"long_term\" 或 \"short_term\":"

structure LSTMMemoryStrategy where
  keywords : List String := defaultLongTermKeywords
  maxShortTerm : Int := 100
  maxLongTerm : Int := 500
  /-- `classify_prompt.format(content=…)`. -/
  classifyPrompt : String → Except Fault String := fun text => .ok (defaultClassifyPrompt text)
  llm : Bool
  shortTerm : List StrategyMessage := []
  longTerm : List StrategyMessage := []

namespace LSTMMemoryStrategy

/-- `word in text`. -/
def occursIn (word text : String) : Bool := decide (word.toList <:+: text.toList)

section Classify

variable (lower : String → String)

/-- `lower` is `str.lower`.  Whether a message goes into the long term by its words. -/
def hasKeyword (s : LSTMMemoryStrategy) (content : String) : Bool :=
  s.keywords.any fun keyword => occursIn (lower keyword) (lower content)

/-- `_classify`: whether a message goes into the long term. -/
def classify (s : LSTMMemoryStrategy) (content : String) (llmCall : LLMCall) :
    Except Fault Bool :=
  if s.llm then
    match (s.classifyPrompt content).bind llmCall with
    | .ok result => .ok (occursIn "long_term" (lower (ContextCompactor.strip result)))
    | .error fault =>
        if fault.isException then .ok (s.hasKeyword lower content) else .error fault
  else .ok (s.hasKeyword lower content)

def onMessage (s : LSTMMemoryStrategy) (message : StrategyMessage) (llmCall : LLMCall) :
    LSTMMemoryStrategy × Except Fault Unit :=
  match s.classify lower message.content llmCall with
  | .error fault => (s, .error fault)
  | .ok true =>
      ({ s with longTerm := limited s.maxLongTerm (s.longTerm ++ [message]) }, .ok ())
  | .ok false =>
      ({ s with shortTerm := limited s.maxShortTerm (s.shortTerm ++ [message]) }, .ok ())

end Classify

/-- The long term as one message. -/
def longTermMessage (longTerm : List StrategyMessage) : StrategyMessage where
  role := "system"
  content := "[长期记忆 — 跨会话保留的关键信息]\n" ++
    "\n".intercalate (longTerm.map fun entry => "- " ++ entry.content)

def getContext (s : LSTMMemoryStrategy) : List StrategyMessage :=
  (if s.longTerm = [] then [] else [longTermMessage s.longTerm]) ++ s.shortTerm

def onSessionEnd (s : LSTMMemoryStrategy) : LSTMMemoryStrategy := { s with shortTerm := [] }

/-- After the end of a session only the long term is handed out. -/
theorem getContext_onSessionEnd (s : LSTMMemoryStrategy) :
    s.onSessionEnd.getContext =
      if s.longTerm = [] then [] else [longTermMessage s.longTerm] := List.append_nil _

end LSTMMemoryStrategy

/-! ## Any of the three -/

inductive MemoryStrategy where
  | full (s : FullMemoryStrategy)
  | summary (s : SummaryMemoryStrategy)
  | lstm (s : LSTMMemoryStrategy)

namespace MemoryStrategy

/-- `lower` is `str.lower`. -/
def onMessage (lower : String → String) (strategy : MemoryStrategy) (message : StrategyMessage)
    (llmCall : LLMCall) : MemoryStrategy × Except Fault Unit :=
  match strategy with
  | .full s => (.full (s.onMessage message), .ok ())
  | .summary s => ((s.onMessage message llmCall).map .summary id)
  | .lstm s => ((s.onMessage lower message llmCall).map .lstm id)

def getContext : MemoryStrategy → List StrategyMessage
  | .full s => s.getContext
  | .summary s => s.getContext
  | .lstm s => s.getContext

def onSessionEnd (strategy : MemoryStrategy) (llmCall : LLMCall) :
    MemoryStrategy × Except Fault Unit :=
  match strategy with
  | .full s => (.full s, .ok ())
  | .summary s => ((s.onSessionEnd llmCall).map .summary id)
  | .lstm s => (.lstm s.onSessionEnd, .ok ())

/-- The messages that a strategy holds, as they were recorded. -/
def held : MemoryStrategy → List StrategyMessage
  | .full s => s.messages
  | .summary s => s.messages
  | .lstm s => s.longTerm ++ s.shortTerm

end MemoryStrategy

/-! ## Cutting a list -/

variable {α : Type}

theorem olderItems_append_lastItems (count : Int) (items : List α) :
    olderItems count items ++ lastItems count items = items := List.take_append_drop _ _

theorem sliceAt_neg_eq_zero_iff {count : Int} {length : Nat} (some_item : 0 < length) :
    sliceAt length (-count) = 0 ↔ Whole count length := by
  unfold sliceAt Whole
  split
  · omega
  · omega

theorem lastItems_eq_self {count : Int} {items : List α} (whole : Whole count items.length) :
    lastItems count items = items := by
  unfold lastItems
  cases items with
  | nil => exact List.drop_nil
  | cons first rest =>
      have nothing : sliceAt (first :: rest).length (-count) = 0 :=
        (sliceAt_neg_eq_zero_iff (Nat.succ_pos _)).mpr whole
      rw [nothing]
      rfl

theorem olderItems_eq_nil_iff {count : Int} {items : List α} (some_item : items ≠ []) :
    olderItems count items = [] ↔ Whole count items.length := by
  have positive := List.length_pos_iff.mpr some_item
  unfold olderItems
  rw [List.take_eq_nil_iff, or_iff_left some_item]
  exact sliceAt_neg_eq_zero_iff positive

theorem length_lastItems_lt {count : Int} {items : List α} (some_item : items ≠ [])
    (cut : ¬Whole count items.length) : (lastItems count items).length < items.length := by
  have positive := List.length_pos_iff.mpr some_item
  have nonzero := mt (sliceAt_neg_eq_zero_iff positive).mp cut
  unfold lastItems
  rw [List.length_drop]
  omega

theorem lastItems_suffix (count : Int) (items : List α) : lastItems count items <:+ items :=
  List.drop_suffix _ _

theorem limited_suffix (limit : Int) (items : List α) : limited limit items <:+ items := by
  unfold limited
  split
  · exact lastItems_suffix limit items
  · exact List.suffix_refl items

theorem limited_eq_self {limit : Int} {items : List α} (whole : Whole limit items.length) :
    limited limit items = items := by
  unfold limited
  split
  · exact lastItems_eq_self whole
  · rfl

/-- The last items are the last items of themselves, but for a negative count. -/
theorem olderItems_lastItems {count : Int} {items : List α}
    (single : count < 0 → items.length ≤ 1) : olderItems count (lastItems count items) = [] := by
  unfold olderItems lastItems
  rw [List.take_eq_nil_iff, ← List.length_eq_zero_iff, List.length_drop]
  unfold sliceAt
  split
  · omega
  · omega

/-! ## Summaries -/

namespace SummaryMemoryStrategy

variable {s : SummaryMemoryStrategy}

/-- What is left of the context when no message is. -/
theorem getContext_nil (nothing : s.messages = []) : s.getContext = summaryMessages s.summary := by
  unfold getContext recent lastItems
  rw [nothing, List.drop_nil, List.append_nil]

theorem length_summaryMessages_le (summary : Option String) :
    (summaryMessages summary).length ≤ if summary = none then 0 else 1 := by
  cases summary with
  | none => exact Nat.zero_le _
  | some text =>
      unfold summaryMessages
      dsimp only
      split
      · exact Nat.zero_le _
      · exact Nat.le_refl 1

/-- A summary is made by a model, of a first part of the messages. -/
theorem generateSummary_cases (s : SummaryMemoryStrategy) (llmCall : LLMCall) (force : Bool) :
    s.generateSummary llmCall force = (s, .ok ()) ∨
      s.llm = true ∧ ∃ toSummarize kept, toSummarize ++ kept = s.messages ∧
        s.generateSummary llmCall force = s.summariseTo llmCall toSummarize kept := by
  unfold generateSummary
  cases model : s.llm with
  | false => exact .inl rfl
  | true =>
      by_cases small : ¬force ∧ (s.messages.length : Int) ≤ s.bufferSize
      · exact .inl (by simp only [if_pos small, not_true_eq_false, if_false])
      · cases force with
        | true => exact .inr ⟨rfl, s.messages, [], List.append_nil _, rfl⟩
        | false =>
            refine .inr ⟨rfl, _, _, olderItems_append_lastItems s.bufferSize s.messages, ?_⟩
            simp only [not_true_eq_false, if_false, Bool.false_eq_true]
            exact if_neg (by simpa using small)

/-- With a model and messages, the end of a session asks for a summary of all of them. -/
theorem onSessionEnd_of_asked {llmCall : LLMCall} (asked : s.llm ∧ s.messages ≠ []) :
    s.onSessionEnd llmCall = s.summariseTo llmCall s.messages [] := by
  unfold onSessionEnd generateSummary
  simp [asked]

end SummaryMemoryStrategy

end YouMi.Memory
