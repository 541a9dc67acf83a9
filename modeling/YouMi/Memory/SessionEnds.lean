import YouMi.Library.Runs
import YouMi.Memory.Manager
import YouMi.Memory.Sessions

/-!
# What the end of a session saves

Runs of one manager over a backend.  The strategy is told first that the session ends
and is asked for its context afterwards, so what it lets go then is not saved.  A step
condition says exactly which session ends save every message that was held.
-/

namespace YouMi.Memory

open YouMi.Core YouMi.Library YouMi.Python

/-- A manager with a persistence backend. -/
structure Desk where
  manager : MemoryManager
  backend : PersistenceBackend

inductive ManagerEvent where
  | startSession (sessionId fresh : String)
  | message (role content : String) (llmCall : LLMCall)
  | sessionEnd (world : World) (llmCall : LLMCall)
  | restore (world : World) (sessionId : String)
  | save (world : World) (messages : List Dict) (sessionId fresh : String)

/-- A strategy that has just been made, with the settings of the given one. -/
def MemoryStrategy.begin : MemoryStrategy → MemoryStrategy
  | .full s => .full { s with messages := [] }
  | .summary s => .summary { s with messages := [], summary := none }
  | .lstm s => .lstm { s with shortTerm := [], longTerm := [] }

/-- Without a model there is no summary. -/
def MemoryStrategy.Unsummarised : MemoryStrategy → Prop
  | .summary s => s.llm = false → s.summary = none
  | _ => True

namespace Desk

section Step

variable (lower : String → String)

def step (s : Desk) : ManagerEvent → Desk
  | .startSession sessionId fresh => { s with manager := s.manager.startSession sessionId fresh }
  | .message role content llmCall =>
      { s with manager := (s.manager.onMessage lower role content llmCall).1 }
  | .sessionEnd world llmCall =>
      let result := s.manager.onSessionEnd world (some s.backend) llmCall
      { manager := result.1, backend := result.2.1.getD s.backend }
  | .restore world sessionId =>
      { s with manager := (s.manager.restoreSession world (some s.backend) sessionId).1 }
  | .save world messages sessionId fresh =>
      let result := s.manager.saveSession world (some s.backend) messages sessionId fresh
      { manager := result.1, backend := result.2.1.getD s.backend }

/-- A new manager over a backend. -/
def begin (agentId tenant : String) (strategy : MemoryStrategy) (backend : PersistenceBackend) :
    Desk where
  manager := .create agentId tenant strategy.begin
  backend := backend

/-- The messages stored for the current session. -/
def stored (s : Desk) (sessionId : String) : List MessageRecord :=
  s.backend.stored s.manager.agentId sessionId

/--
At the end of a session each message the strategy holds is stored as it is, in order, or
the stored session has a summary that was made of all of them.
-/
def Kept (s : Desk) : ManagerEvent → Prop
  | .sessionEnd world llmCall =>
      let stored := (s.step lower (.sessionEnd world llmCall)).stored s.manager.currentSessionId
      s.manager.currentSessionId ≠ "" →
        (s.manager.strategy.held.map StrategyMessage.toRecord).Sublist stored ∨
          ∃ strategy answer, s.manager.strategy = .summary strategy ∧ strategy.llm ∧
            strategy.Answers llmCall strategy.messages answer ∧
            ∀ message ∈ SummaryMemoryStrategy.summaryMessages (some answer),
              message.toRecord ∈ stored
  | _ => True

end Step

/-- The session ends at which every message that is held is saved, or summarised. -/
def Saves (s : Desk) : ManagerEvent → Prop
  | .sessionEnd _ llmCall =>
      s.manager.currentSessionId ≠ "" →
        match s.manager.strategy with
        | .full _ => True
        | .summary strategy =>
            if strategy.llm ∧ strategy.messages ≠ [] then
              match strategy.outcome llmCall strategy.messages with
              | .adopted => True
              | .empty => False
              | .failed =>
                  (strategy.messages.map StrategyMessage.toRecord).Sublist
                    ((SummaryMemoryStrategy.summaryMessages strategy.summary).map
                      StrategyMessage.toRecord)
              | .interrupted =>
                  (strategy.messages.map StrategyMessage.toRecord).Sublist
                    (s.stored s.manager.currentSessionId)
            else strategy.messages = [] ∨ Whole strategy.bufferSize strategy.messages.length
        | .lstm strategy => strategy.longTerm = [] ∧ strategy.shortTerm = []
  | _ => True

variable {lower : String → String} {s : Desk} {world : World} {llmCall : LLMCall}

/-- The end of a session stores the context of the strategy as it is then, or nothing where the
strategy raises. -/
theorem stored_sessionEnd (lower : String → String) (world : World) (llmCall : LLMCall)
    (named : s.manager.currentSessionId ≠ "") :
    (s.step lower (.sessionEnd world llmCall)).stored s.manager.currentSessionId =
      match s.manager.strategy.onSessionEnd llmCall with
      | (strategy, .ok ()) => strategy.getContext.map StrategyMessage.toRecord
      | (_, .error _) => s.stored s.manager.currentSessionId := by
  change ((MemoryManager.onSessionEnd _ _ _ _).2.1.getD _).stored
    (MemoryManager.onSessionEnd _ _ _ _).1.agentId _ = _
  rw [MemoryManager.onSessionEnd_eq]
  cases s.manager.strategy.onSessionEnd llmCall with
  | mk strategy result =>
      cases result with
      | error fault => rfl
      | ok value =>
          have saved := s.backend.call_saveSession world
            (strategy.getContext.map StrategyMessage.toDict) s.manager.currentSessionId
            s.manager.agentId s.manager.tenant
          rw [PersistenceBackend.written_toDict] at saved
          change (MemoryManager.saveCurrentSession world _ s.backend).1.stored
            s.manager.agentId s.manager.currentSessionId = _
          unfold MemoryManager.saveCurrentSession
          rw [if_neg named]
          exact saved.2

end Desk

/-! ## Without a model there is no summary -/

namespace MemoryStrategy

theorem unsummarised_begin (strategy : MemoryStrategy) : strategy.begin.Unsummarised := by
  cases strategy with
  | full s => trivial
  | summary s => exact fun _ => rfl
  | lstm s => trivial

theorem unsummarised_generate {s : SummaryMemoryStrategy}
    (unsummarised : s.llm = false → s.summary = none) (llmCall : LLMCall) (force : Bool) :
    MemoryStrategy.Unsummarised (.summary (s.generateSummary llmCall force).1) := by
  rcases s.generateSummary_cases llmCall force with same | ⟨model, _, _, _, asked⟩
  · rw [same]
    exact unsummarised
  · rw [asked]
    unfold SummaryMemoryStrategy.summariseTo
    split
    · exact unsummarised
    · exact fun none => absurd (model.symm.trans none) (by decide)

theorem Unsummarised.onMessage {strategy : MemoryStrategy} (unsummarised : strategy.Unsummarised)
    (lower : String → String) (message : StrategyMessage) (llmCall : LLMCall) :
    (strategy.onMessage lower message llmCall).1.Unsummarised := by
  cases strategy with
  | full s => trivial
  | summary s =>
      change MemoryStrategy.Unsummarised (.summary (s.onMessage message llmCall).1)
      unfold SummaryMemoryStrategy.onMessage
      dsimp only
      split
      · refine unsummarised_generate ?_ llmCall false
        exact unsummarised
      · exact unsummarised
  | lstm s => trivial

theorem Unsummarised.onSessionEnd {strategy : MemoryStrategy}
    (unsummarised : strategy.Unsummarised) (llmCall : LLMCall) :
    (strategy.onSessionEnd llmCall).1.Unsummarised := by
  cases strategy with
  | full s => trivial
  | summary s =>
      change MemoryStrategy.Unsummarised (.summary (s.onSessionEnd llmCall).1)
      unfold SummaryMemoryStrategy.onSessionEnd
      split
      · exact unsummarised_generate unsummarised llmCall true
      · exact unsummarised
  | lstm s => trivial

end MemoryStrategy

namespace Desk

variable {lower : String → String} {s : Desk} {world : World} {llmCall : LLMCall}

/-- What a step does to the strategy: only a message and the end of a session change it. -/
theorem strategy_step (event : ManagerEvent) :
    (s.step lower event).manager.strategy =
      match event with
      | .message role content llmCall =>
          (s.manager.strategy.onMessage lower { role := role, content := content } llmCall).1
      | .sessionEnd _ llmCall => (s.manager.strategy.onSessionEnd llmCall).1
      | _ => s.manager.strategy := by
  cases event with
  | startSession sessionId fresh => rfl
  | message role content llmCall => rfl
  | sessionEnd world llmCall =>
      change (MemoryManager.onSessionEnd _ _ _ _).1.strategy =
        (s.manager.strategy.onSessionEnd llmCall).1
      rw [MemoryManager.onSessionEnd_eq]
      cases s.manager.strategy.onSessionEnd llmCall with
      | mk strategy result =>
          cases result with
          | error fault => rfl
          | ok value => rfl
  | restore world sessionId =>
      change (MemoryManager.restoreSession _ _ _ _).1.strategy = _
      unfold MemoryManager.restoreSession MemoryManager.restored
      grind
  | save world messages sessionId fresh =>
      change (MemoryManager.saveSession _ _ _ _ _ _).1.strategy = _
      unfold MemoryManager.saveSession MemoryManager.startSession
      grind

theorem unsummarised_step (unsummarised : s.manager.strategy.Unsummarised)
    (event : ManagerEvent) : (s.step lower event).manager.strategy.Unsummarised := by
  rw [strategy_step]
  cases event with
  | message role content llmCall => exact unsummarised.onMessage lower _ llmCall
  | sessionEnd world llmCall => exact unsummarised.onSessionEnd llmCall
  | startSession sessionId fresh => exact unsummarised
  | restore world sessionId => exact unsummarised
  | save world messages sessionId fresh => exact unsummarised

/-! ## Which session ends save everything -/

/-- What is left out of a suffix is missing from it. -/
theorem sublist_lastItems_iff {count : Int} {messages : List StrategyMessage} :
    (messages.map StrategyMessage.toRecord).Sublist
        ((lastItems count messages).map StrategyMessage.toRecord) ↔
      messages = [] ∨ Whole count messages.length := by
  constructor
  · intro sublist
    by_contra lost
    obtain ⟨some_message, cut⟩ := not_or.mp lost
    have shorter := length_lastItems_lt some_message cut
    have longer := sublist.length_le
    rw [List.length_map, List.length_map] at longer
    omega
  · rintro (rfl | whole)
    · exact List.nil_sublist _
    · rw [lastItems_eq_self whole]

/-- The long term as one message is not one of its own messages. -/
theorem held_sublist_longTerm_iff {s : LSTMMemoryStrategy} :
    ((s.longTerm ++ s.shortTerm).map StrategyMessage.toRecord).Sublist
        (s.onSessionEnd.getContext.map StrategyMessage.toRecord) ↔
      s.longTerm = [] ∧ s.shortTerm = [] := by
  rw [LSTMMemoryStrategy.getContext_onSessionEnd]
  constructor
  · intro sublist
    by_cases nothing : s.longTerm = []
    · rw [if_pos nothing, nothing, List.nil_append, List.map_nil, List.sublist_nil,
        List.map_eq_nil_iff] at sublist
      exact ⟨nothing, sublist⟩
    · rw [if_neg nothing] at sublist
      obtain ⟨entry, rest, long⟩ := List.exists_cons_of_ne_nil nothing
      have single := sublist.length_le
      rw [long] at sublist single
      simp only [List.cons_append, List.map_cons, List.length_cons, List.length_map,
        List.length_append, List.map_nil, List.length_nil] at single
      have alone : rest ++ s.shortTerm = [] := by
        rw [← List.length_eq_zero_iff, List.length_append]
        omega
      rw [List.cons_append, alone, (List.append_eq_nil_iff.mp alone).1] at sublist
      have same : entry.toRecord = (LSTMMemoryStrategy.longTermMessage [entry]).toRecord :=
        List.mem_singleton.mp (sublist.subset List.mem_cons_self)
      have texts := congrArg (fun record => record.content.length) same
      simp [StrategyMessage.toRecord, LSTMMemoryStrategy.longTermMessage] at texts
      have dash : "- ".length = 2 := rfl
      omega
  · rintro ⟨long, short⟩
    rw [long, short]
    exact List.nil_sublist _

section Summary

variable {strategy : SummaryMemoryStrategy}

/-- What the end of a session must show of the one strategy that summarises. -/
theorem kept_summary (held : s.manager.strategy = .summary strategy)
    (named : s.manager.currentSessionId ≠ "") :
    s.Kept lower (.sessionEnd world llmCall) ↔
      (strategy.messages.map StrategyMessage.toRecord).Sublist
          ((s.step lower (.sessionEnd world llmCall)).stored s.manager.currentSessionId) ∨
        ∃ answer, strategy.llm ∧ strategy.Answers llmCall strategy.messages answer ∧
          ∀ message ∈ SummaryMemoryStrategy.summaryMessages (some answer), message.toRecord ∈
            (s.step lower (.sessionEnd world llmCall)).stored s.manager.currentSessionId := by
  simp only [Kept, held, imp_iff_right named]
  refine or_congr Iff.rfl ⟨?_, ?_⟩
  · rintro ⟨other, answer, same, summarised⟩
    cases same
    exact ⟨answer, summarised⟩
  · rintro ⟨answer, summarised⟩
    exact ⟨strategy, answer, rfl, summarised⟩

theorem stored_summary (held : s.manager.strategy = .summary strategy)
    (named : s.manager.currentSessionId ≠ "") :
    (s.step lower (.sessionEnd world llmCall)).stored s.manager.currentSessionId =
      match strategy.onSessionEnd llmCall with
      | (strategy, .ok ()) => strategy.getContext.map StrategyMessage.toRecord
      | (_, .error _) => s.stored s.manager.currentSessionId := by
  rw [stored_sessionEnd lower world llmCall named, held]
  change (match (strategy.onSessionEnd llmCall).map MemoryStrategy.summary id with
    | (strategy, .ok ()) => _
    | (_, .error _) => _) = _
  rcases strategy.onSessionEnd llmCall with ⟨after, fault | _⟩
  · rfl
  · rfl

/-- With a model all messages go into the summary, so what is kept depends on its answer. -/
theorem kept_asked_iff (held : s.manager.strategy = .summary strategy)
    (named : s.manager.currentSessionId ≠ "")
    (asked : strategy.llm ∧ strategy.messages ≠ []) :
    s.Kept lower (.sessionEnd world llmCall) ↔
      match strategy.outcome llmCall strategy.messages with
      | .adopted => True
      | .empty => False
      | .failed =>
          (strategy.messages.map StrategyMessage.toRecord).Sublist
            ((SummaryMemoryStrategy.summaryMessages strategy.summary).map
              StrategyMessage.toRecord)
      | .interrupted =>
          (strategy.messages.map StrategyMessage.toRecord).Sublist
            (s.stored s.manager.currentSessionId) := by
  rw [kept_summary held named, stored_summary held named,
    SummaryMemoryStrategy.onSessionEnd_of_asked asked]
  have unanswered : strategy.outcome llmCall strategy.messages ≠ .adopted →
      ∀ answer, ¬strategy.Answers llmCall strategy.messages answer :=
    fun not_adopted answer answers =>
      not_adopted (SummaryMemoryStrategy.outcome_of_answers answers)
  rcases strategy.summariseTo_cases llmCall strategy.messages [] with
    ⟨outcome, answer, answers, result⟩ | ⟨outcome, result⟩ | ⟨outcome, result⟩ |
      ⟨outcome, fault, result⟩
  · rw [outcome, result]
    refine iff_of_true (.inr ⟨answer, asked.1, answers, ?_⟩) trivial
    exact fun message member => List.mem_map_of_mem (List.mem_append_left _ member)
  all_goals
    rw [outcome] at unanswered
    rw [outcome, result,
      or_iff_left fun ⟨answer, _, answers, _⟩ => unanswered (by decide) answer answers]
  · refine iff_of_false (fun sublist => asked.2 ?_) id
    change List.Sublist _ ((SummaryMemoryStrategy.getContext _).map _) at sublist
    rw [SummaryMemoryStrategy.getContext_nil rfl] at sublist
    exact List.map_eq_nil_iff.mp (List.sublist_nil.mp sublist)
  · change List.Sublist _ ((SummaryMemoryStrategy.getContext _).map _) ↔ _
    rw [SummaryMemoryStrategy.getContext_nil rfl]

/-- Without a model the last messages are stored, so all are kept if none is cut off. -/
theorem kept_idle_iff (held : s.manager.strategy = .summary strategy)
    (unsummarised : strategy.llm = false → strategy.summary = none)
    (named : s.manager.currentSessionId ≠ "")
    (idle : ¬(strategy.llm ∧ strategy.messages ≠ [])) :
    s.Kept lower (.sessionEnd world llmCall) ↔
      strategy.messages = [] ∨ Whole strategy.bufferSize strategy.messages.length := by
  have ended : strategy.onSessionEnd llmCall = (strategy, .ok ()) := if_neg idle
  rw [kept_summary held named, stored_summary held named, ended]
  by_cases nothing : strategy.messages = []
  · refine iff_of_true (.inl ?_) (.inl nothing)
    rw [nothing]
    exact List.nil_sublist _
  · have noModel : strategy.llm = false := by
      by_contra model
      exact idle ⟨Bool.eq_true_of_not_eq_false model, nothing⟩
    have context : strategy.getContext = lastItems strategy.bufferSize strategy.messages := by
      unfold SummaryMemoryStrategy.getContext
      rw [unsummarised noModel]
      rfl
    rw [or_iff_left fun ⟨_, model, _⟩ => absurd (noModel.symm.trans model) (by decide)]
    change List.Sublist _ (strategy.getContext.map _) ↔ _
    rw [context, sublist_lastItems_iff]

theorem kept_summary_iff (held : s.manager.strategy = .summary strategy)
    (unsummarised : strategy.llm = false → strategy.summary = none)
    (named : s.manager.currentSessionId ≠ "") :
    s.Kept lower (.sessionEnd world llmCall) ↔ s.Saves (.sessionEnd world llmCall) := by
  simp only [Saves, held, imp_iff_right named]
  by_cases asked : strategy.llm ∧ strategy.messages ≠ []
  · rw [if_pos asked]
    exact kept_asked_iff held named asked
  · rw [if_neg asked]
    exact kept_idle_iff held unsummarised named asked

end Summary

/-- The end of a session saves every message that is held exactly if the strategy lets none
of them go, or has summarised them. -/
theorem kept_iff (unsummarised : s.manager.strategy.Unsummarised) (event : ManagerEvent) :
    s.Kept lower event ↔ s.Saves event := by
  cases event with
  | startSession sessionId fresh => exact Iff.rfl
  | message role content llmCall => exact Iff.rfl
  | restore world sessionId => exact Iff.rfl
  | save world messages sessionId fresh => exact Iff.rfl
  | sessionEnd world llmCall =>
      by_cases named : s.manager.currentSessionId = ""
      · exact iff_of_true (fun some_name => absurd named some_name)
          (fun some_name => absurd named some_name)
      · cases held : s.manager.strategy with
        | summary strategy =>
            rw [held] at unsummarised
            exact kept_summary_iff held unsummarised named
        | full strategy =>
            have stored := stored_sessionEnd lower world llmCall named
            simp only [Kept, Saves, held, imp_iff_right named]
            rw [held] at stored
            rw [stored]
            exact iff_of_true (.inl (List.Sublist.refl _)) trivial
        | lstm strategy =>
            have stored := stored_sessionEnd lower world llmCall named
            simp only [Kept, Saves, held, imp_iff_right named]
            rw [held] at stored
            rw [stored, or_iff_left]
            · exact held_sublist_longTerm_iff
            · rintro ⟨_, _, same, _⟩
              cases same

/--
Along every run of a manager, each session end saves or summarises all that the strategy
holds, exactly if each of them finds a strategy that loses nothing.
-/
theorem sessionEnds_keep_iff (lower : String → String) (agentId tenant : String)
    (strategy : MemoryStrategy) (backend : PersistenceBackend) (events : List ManagerEvent) :
    StepsMeet (step lower) (Kept lower) (begin agentId tenant strategy backend) events ↔
      StepsMeet (step lower) Saves (begin agentId tenant strategy backend) events :=
  stepsMeet_congr (step lower) (fun s => s.manager.strategy.Unsummarised)
    (fun _ event unsummarised => unsummarised_step unsummarised event)
    (fun _ event unsummarised => kept_iff unsummarised event)
    (MemoryStrategy.unsummarised_begin strategy) events

/-- A strategy with a short term has forgotten it when the session is saved. -/
theorem shortTerm_not_saved :
    ¬∀ (lower : String → String) (agentId tenant : String) (strategy : MemoryStrategy)
      (backend : PersistenceBackend) (events : List ManagerEvent),
      StepsMeet (step lower) (Kept lower) (begin agentId tenant strategy backend) events := by
  intro always
  obtain ⟨_, _, kept, _⟩ := always id "a" "" (.lstm { llm := false }) (.file {})
    [.startSession "s" "", .message "user" "hi" .ok, .sessionEnd (plainWorld 1) .ok]
  rcases kept (by decide) with sublist | ⟨_, _, same, _⟩
  · exact absurd sublist.length_le (by decide)
  · cases same

end Desk

end YouMi.Memory
