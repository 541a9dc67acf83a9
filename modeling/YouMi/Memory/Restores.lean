import YouMi.Memory.SessionEnds

/-!
# Saving a restored session again

A restored session is handed to the caller and becomes the current one; the strategy
does not learn of it.  Beside a manager the expected content of its restored session is
kept: what was stored, and after it what was recorded since.
-/

namespace YouMi.Memory

open YouMi.Core YouMi.Library YouMi.Python

/-- A session that was restored, and the messages that were recorded after that. -/
structure RestoredSession where
  sessionId : String
  restored : List Dict
  recorded : List Dict := []

/-- The stored messages followed by the new ones. -/
def RestoredSession.continued (session : RestoredSession) : List Dict :=
  session.restored ++ session.recorded

/-- A manager with a backend, and the session it has restored last. -/
structure Continuation where
  desk : Desk
  session : Option RestoredSession := none

namespace Continuation

section Step

variable (lower : String → String)

/-- What becomes of the restored session: another one is restored, messages are recorded,
another session is started. -/
def follow (s : Continuation) : ManagerEvent → Option RestoredSession
  | .restore world sessionId =>
      match s.desk.manager.restoreSession world (some s.desk.backend) sessionId with
      | (manager, some messages) =>
          some { sessionId := manager.currentSessionId, restored := messages }
      | (_, none) => s.session
  | .message role content _ =>
      s.session.map fun session =>
        { session with
          recorded :=
            session.recorded ++ [StrategyMessage.toDict { role := role, content := content }] }
  | .startSession sessionId fresh =>
      s.session.filter fun session =>
        session.sessionId == (s.desk.manager.startSession sessionId fresh).currentSessionId
  | _ => s.session

def step (s : Continuation) (event : ManagerEvent) : Continuation where
  desk := s.desk.step lower event
  session := s.follow event

/-- The messages that a load of the restored session would give. -/
def loaded (s : Continuation) (sessionId : String) : List Dict :=
  (s.desk.stored sessionId).map MessageRecord.toOpenaiMessage

/-- A restored session that is saved again has what was stored, followed by what is new. -/
def Continues (s : Continuation) (event : ManagerEvent) : Prop :=
  ∀ session, s.session = some session →
    match event with
    | .sessionEnd world llmCall =>
        session.sessionId ≠ "" → s.desk.manager.currentSessionId = session.sessionId →
          (s.desk.manager.onSessionEnd world (some s.desk.backend) llmCall).2.2 = .ok () →
            (s.step lower event).loaded session.sessionId = session.continued
    | .save world messages sessionId fresh =>
        s.desk.manager.saveTarget sessionId fresh = session.sessionId →
          (s.desk.manager.saveSession world (some s.desk.backend) messages sessionId fresh).2.2 =
            .done →
            (s.step lower event).loaded session.sessionId = session.continued
    | _ => True

end Step

/-- What the strategy holds when the session ends is the stored messages and the new ones. -/
def HoldsHistory (strategy : MemoryStrategy) (llmCall : LLMCall) (continued : List Dict) : Prop :=
  match strategy with
  | .full s => s.messages.map StrategyMessage.toDict = continued
  | .summary s =>
      if s.llm ∧ s.messages ≠ [] then
        match s.outcome llmCall s.messages with
        | .adopted =>
            ∀ answer, s.Answers llmCall s.messages answer →
              (SummaryMemoryStrategy.summaryMessages (some answer)).map StrategyMessage.toDict =
                continued
        | .empty => continued = []
        | .failed =>
            (SummaryMemoryStrategy.summaryMessages s.summary).map StrategyMessage.toDict = continued
        | .interrupted => True
      else
        (SummaryMemoryStrategy.summaryMessages s.summary ++ s.recent).map StrategyMessage.toDict =
          continued
  | .lstm s =>
      (if s.longTerm = [] then [] else [LSTMMemoryStrategy.longTermMessage s.longTerm]).map
        StrategyMessage.toDict = continued

/-- The saves that are given the stored messages and the new ones. -/
def GivenHistory (s : Continuation) (event : ManagerEvent) : Prop :=
  ∀ session, s.session = some session →
    match event with
    | .sessionEnd _ llmCall =>
        session.sessionId ≠ "" → s.desk.manager.currentSessionId = session.sessionId →
          HoldsHistory s.desk.manager.strategy llmCall session.continued
    | .save world messages sessionId fresh =>
        s.desk.manager.saveTarget sessionId fresh = session.sessionId →
          ∀ records, s.desk.backend.written world messages = some records →
            records.map MessageRecord.toOpenaiMessage = session.continued
    | _ => True

variable {lower : String → String} {s : Continuation} {world : World} {llmCall : LLMCall}

theorem toOpenaiMessage_toRecord (message : StrategyMessage) :
    message.toRecord.toOpenaiMessage = message.toDict := rfl

theorem map_toOpenaiMessage (messages : List StrategyMessage) :
    (messages.map StrategyMessage.toRecord).map MessageRecord.toOpenaiMessage =
      messages.map StrategyMessage.toDict := by
  rw [List.map_map]
  rfl

/-- The end of a session raises exactly where the strategy does. -/
theorem sessionEnd_ok_iff {manager : MemoryManager} {backend : PersistenceBackend} :
    (manager.onSessionEnd world (some backend) llmCall).2.2 = .ok () ↔
      (manager.strategy.onSessionEnd llmCall).2 = .ok () := by
  rw [MemoryManager.onSessionEnd_eq]
  cases manager.strategy.onSessionEnd llmCall with
  | mk strategy result =>
      cases result with
      | error fault => exact Iff.rfl
      | ok value => exact Iff.rfl

/-- What the end of a session leaves of the context, where it does not raise. -/
theorem holdsHistory_iff {strategy : MemoryStrategy} {continued : List Dict} :
    HoldsHistory strategy llmCall continued ↔
      ((strategy.onSessionEnd llmCall).2 = .ok () →
        (strategy.onSessionEnd llmCall).1.getContext.map StrategyMessage.toDict = continued) := by
  cases strategy with
  | full s => exact (imp_iff_right rfl).symm
  | lstm s =>
      refine Iff.trans ?_ (imp_iff_right rfl).symm
      change _ ↔ (s.onSessionEnd.getContext).map _ = _
      rw [s.getContext_onSessionEnd]
      exact Iff.rfl
  | summary s =>
      change (if _ then _ else _) ↔ ((s.onSessionEnd llmCall).2 = .ok () →
        (s.onSessionEnd llmCall).1.getContext.map _ = _)
      by_cases asked : s.llm ∧ s.messages ≠ []
      · rw [if_pos asked, SummaryMemoryStrategy.onSessionEnd_of_asked asked]
        rcases s.summariseTo_cases llmCall s.messages [] with
          ⟨outcome, answer, answers, result⟩ | ⟨outcome, result⟩ | ⟨outcome, result⟩ |
            ⟨outcome, fault, result⟩
        · rw [outcome, result, imp_iff_right rfl, SummaryMemoryStrategy.getContext_nil rfl]
          refine ⟨fun every => every answer answers, fun same other others => ?_⟩
          rwa [others.unique answers]
        · rw [outcome, result, imp_iff_right rfl, SummaryMemoryStrategy.getContext_nil rfl]
          exact eq_comm
        · rw [outcome, result, imp_iff_right rfl, SummaryMemoryStrategy.getContext_nil rfl]
        · rw [outcome, result]
          exact iff_of_true trivial fun ok => (nomatch ok)
      · have ended : s.onSessionEnd llmCall = (s, .ok ()) := if_neg asked
        rw [if_neg asked, ended, imp_iff_right rfl]
        exact Iff.rfl

theorem loaded_sessionEnd {sessionId : String} (named : sessionId ≠ "")
    (current : s.desk.manager.currentSessionId = sessionId) :
    (s.step lower (.sessionEnd world llmCall)).loaded sessionId =
      match s.desk.manager.strategy.onSessionEnd llmCall with
      | (strategy, .ok ()) => strategy.getContext.map StrategyMessage.toDict
      | (_, .error _) => s.loaded sessionId := by
  subst current
  have stored := Desk.stored_sessionEnd lower world llmCall named
  unfold loaded
  change (Desk.stored _ _).map _ = _
  rw [step, stored]
  cases s.desk.manager.strategy.onSessionEnd llmCall with
  | mk strategy result =>
      cases result with
      | error fault => rfl
      | ok value => exact map_toOpenaiMessage _

/-- A save of given messages stores what the backend writes of them. -/
theorem loaded_save {messages records : List Dict} {sessionId fresh : String} :
    (∀ written, s.desk.backend.written world messages = some written →
        written.map MessageRecord.toOpenaiMessage = records) ↔
      ((s.desk.manager.saveSession world (some s.desk.backend) messages sessionId fresh).2.2 =
          .done →
        (s.step lower (.save world messages sessionId fresh)).loaded
          (s.desk.manager.saveTarget sessionId fresh) = records) := by
  have saved := MemoryManager.saveSession_eq world s.desk.manager s.desk.backend messages
    sessionId fresh
  have call := s.desk.backend.call_saveSession world messages
    (s.desk.manager.saveTarget sessionId fresh) s.desk.manager.agentId s.desk.manager.tenant
  have agent : (if sessionId = "" ∧ s.desk.manager.currentSessionId = "" then
      s.desk.manager.startSession "" fresh else s.desk.manager).agentId =
        s.desk.manager.agentId := by
    split
    · rfl
    · rfl
  unfold loaded
  change _ ↔ (_ → (Desk.stored (Desk.step lower s.desk _) _).map _ = _)
  simp only [Desk.step, Desk.stored, saved, Option.getD_some, agent]
  unfold MemoryManager.saveCall
  cases accepted : s.desk.backend.written world messages with
  | none =>
      rw [accepted] at call
      rw [call]
      exact iff_of_true (fun _ absent => (nomatch absent)) fun raised => (nomatch raised)
  | some written =>
      rw [accepted] at call
      rw [call.1, call.2]
      simp

theorem continues_iff (event : ManagerEvent) :
    s.Continues lower event ↔ s.GivenHistory event := by
  refine forall_congr' fun session => imp_congr_right fun _ => ?_
  cases event with
  | startSession sessionId fresh => exact Iff.rfl
  | message role content llmCall => exact Iff.rfl
  | restore world sessionId => exact Iff.rfl
  | sessionEnd world llmCall =>
      refine imp_congr_right fun named => imp_congr_right fun current => ?_
      rw [sessionEnd_ok_iff, loaded_sessionEnd named current, holdsHistory_iff]
      cases s.desk.manager.strategy.onSessionEnd llmCall with
      | mk strategy result =>
          cases result with
          | error fault => exact iff_of_true (fun ok => (nomatch ok)) fun ok => (nomatch ok)
          | ok value => exact Iff.rfl
  | save world messages sessionId fresh =>
      refine imp_congr_right fun same => ?_
      rw [← same]
      exact loaded_save.symm

/--
Along every run of a manager, with any number of restores and saves, each save of the restored
session stores what was stored and then what is new, exactly if it is given just that.
-/
theorem restores_continue_iff (lower : String → String) (start : Continuation)
    (events : List ManagerEvent) :
    StepsMeet (step lower) (Continues lower) start events ↔
      StepsMeet (step lower) GivenHistory start events :=
  stepsMeet_congr (step lower) (fun _ => True) (fun _ _ _ => trivial)
    (fun _ event _ => continues_iff event) trivial events

/-- A new manager that restores a session stores only what it records itself. -/
theorem restored_session_replaced :
    ¬∀ (lower : String → String) (start : Continuation) (events : List ManagerEvent),
      StepsMeet (step lower) (Continues lower) start events := by
  intro always
  let stored := PersistenceBackend.sqlite
    (SQLiteBackend.call (plainWorld 1) {} (.saveSession "s" "a" [[]] none "default")).1
  obtain ⟨_, _, continues, _⟩ := always id ⟨.begin "a" "" (.full {}) stored, none⟩
    [.restore (plainWorld 2) "s", .message "user" "hi" .ok, .sessionEnd (plainWorld 3) .ok]
  have same := continues _ rfl (by decide) (by decide) rfl
  exact absurd (congrArg List.length same) (by decide)

/-! ## A manager that has recorded nothing before it restores -/

/-- A strategy holds no more than so many messages, and has a summary only if it was given one. -/
def Bounded (count : Nat) : MemoryStrategy → Prop
  | .full s => s.messages.length ≤ count
  | .summary s => s.messages.length ≤ count ∧ (s.summary ≠ none → 0 < count) ∧
      (s.llm = false → s.summary = none)
  | .lstm s => s.longTerm.length + s.shortTerm.length ≤ count

theorem bounded_begin (strategy : MemoryStrategy) : Bounded 0 strategy.begin := by
  cases strategy with
  | full s => exact Nat.le_refl 0
  | summary s => exact ⟨Nat.le_refl 0, fun given => absurd rfl given, fun _ => rfl⟩
  | lstm s => exact Nat.le_refl 0

theorem length_limited_le (limit : Int) (messages : List StrategyMessage)
    (message : StrategyMessage) : (limited limit (messages ++ [message])).length ≤
      messages.length + 1 := by
  have bound := (limited_suffix limit (messages ++ [message])).length_le
  rwa [List.length_append] at bound

/-- A summary takes the place of messages. -/
theorem bounded_summariseTo {count : Nat} {strategy : SummaryMemoryStrategy}
    {toSummarize kept : List StrategyMessage} (bounded : Bounded count (.summary strategy))
    (llm : strategy.llm = true) (positive : 0 < count) (fewer : kept.length ≤ count) :
    Bounded count (.summary (strategy.summariseTo llmCall toSummarize kept).1) := by
  rcases strategy.summariseTo_cases llmCall toSummarize kept with
    ⟨_, _, _, result⟩ | ⟨_, result⟩ | ⟨_, result⟩ | ⟨_, _, result⟩
  · rw [result]
    exact ⟨fewer, fun _ => positive, fun none => absurd (llm.symm.trans none) (by decide)⟩
  · rw [result]
    exact ⟨fewer, fun _ => positive, fun none => absurd (llm.symm.trans none) (by decide)⟩
  · rw [result]
    exact ⟨fewer, fun _ => positive, fun none => absurd (llm.symm.trans none) (by decide)⟩
  · rw [result]
    exact bounded

theorem bounded_onMessage {count : Nat} {strategy : MemoryStrategy}
    (bounded : Bounded count strategy) (lower : String → String) (message : StrategyMessage)
    (llmCall : LLMCall) : Bounded (count + 1) (strategy.onMessage lower message llmCall).1 := by
  cases strategy with
  | full s =>
      exact (length_limited_le _ _ _).trans (Nat.succ_le_succ bounded)
  | lstm s =>
      change Bounded (count + 1) (.lstm (s.onMessage lower message llmCall).1)
      have long := length_limited_le s.maxLongTerm s.longTerm message
      have short := length_limited_le s.maxShortTerm s.shortTerm message
      have fewer : s.longTerm.length + s.shortTerm.length ≤ count := bounded
      unfold LSTMMemoryStrategy.onMessage
      split
      · exact fewer.trans (Nat.le_succ _)
      · change (limited _ (s.longTerm ++ [message])).length + s.shortTerm.length ≤ count + 1
        omega
      · change s.longTerm.length + (limited _ (s.shortTerm ++ [message])).length ≤ count + 1
        omega
  | summary s =>
      obtain ⟨fewer, given, unsummarised⟩ := bounded
      have added := (length_limited_le s.maxTotal s.messages message).trans
        (Nat.succ_le_succ fewer)
      have next : Bounded (count + 1) (.summary
          { s with messages := limited s.maxTotal (s.messages ++ [message]) }) :=
        ⟨added, fun _ => Nat.succ_pos _, unsummarised⟩
      change Bounded (count + 1) (.summary (s.onMessage message llmCall).1)
      unfold SummaryMemoryStrategy.onMessage
      dsimp only
      split
      · rcases SummaryMemoryStrategy.generateSummary_cases _ llmCall false with
          same | ⟨model, _, kept, parts, asked⟩
        · rw [same]
          exact next
        · rw [asked]
          have part := (congrArg List.length parts).trans_le added
          rw [List.length_append] at part
          exact bounded_summariseTo next model (Nat.succ_pos _) (by omega)
      · exact next

/-- What a strategy hands out after the end of a session is no more than it was given. -/
theorem length_getContext_le {count : Nat} {strategy : MemoryStrategy}
    (bounded : Bounded count strategy) (ok : (strategy.onSessionEnd llmCall).2 = .ok ()) :
    (strategy.onSessionEnd llmCall).1.getContext.length ≤ count := by
  cases strategy with
  | full s => exact bounded
  | lstm s =>
      have fewer : s.longTerm.length + s.shortTerm.length ≤ count := bounded
      change s.onSessionEnd.getContext.length ≤ count
      rw [s.getContext_onSessionEnd]
      split
      · exact Nat.zero_le _
      · rename_i long
        have := List.length_pos_iff.mpr long
        rw [List.length_singleton]
        omega
  | summary s =>
      obtain ⟨fewer, given, unsummarised⟩ := bounded
      change (s.onSessionEnd llmCall).1.getContext.length ≤ count
      replace ok : (s.onSessionEnd llmCall).2 = .ok () := ok
      by_cases asked : s.llm ∧ s.messages ≠ []
      · have positive : 0 < count := (List.length_pos_iff.mpr asked.2).trans_le fewer
        have texts (summary : Option String) :
            (SummaryMemoryStrategy.summaryMessages summary).length ≤ count := by
          refine (SummaryMemoryStrategy.length_summaryMessages_le summary).trans ?_
          split
          · exact Nat.zero_le _
          · exact positive
        rw [SummaryMemoryStrategy.onSessionEnd_of_asked asked] at ok ⊢
        rcases s.summariseTo_cases llmCall s.messages [] with
          ⟨_, _, _, result⟩ | ⟨_, result⟩ | ⟨_, result⟩ | ⟨_, fault, result⟩
        · rw [result, SummaryMemoryStrategy.getContext_nil rfl]
          exact texts _
        · rw [result, SummaryMemoryStrategy.getContext_nil rfl]
          exact texts _
        · rw [result, SummaryMemoryStrategy.getContext_nil rfl]
          exact texts _
        · rw [result] at ok
          cases ok
      · have ended : s.onSessionEnd llmCall = (s, .ok ()) := if_neg asked
        have texts := SummaryMemoryStrategy.length_summaryMessages_le s.summary
        have recent : s.recent.length ≤ s.messages.length := (lastItems_suffix _ _).length_le
        rw [ended]
        change (SummaryMemoryStrategy.summaryMessages s.summary ++ s.recent).length ≤ count
        rw [List.length_append]
        cases model : s.llm with
        | false =>
            rw [if_pos (unsummarised model)] at texts
            omega
        | true =>
            have nothing : s.messages = [] := by
              by_contra some_message
              exact asked ⟨model, some_message⟩
            rw [nothing, List.length_nil] at recent
            split at texts
            · omega
            · rename_i summarised
              have := given summarised
              omega

/-- The events by which messages are recorded. -/
def turns (messages : List (String × String × LLMCall)) : List ManagerEvent :=
  messages.map fun turn => .message turn.1 turn.2.1 turn.2.2

/-- The restored session has messages and is current, and the strategy has only what is new. -/
def Unseeded (s : Continuation) : Prop :=
  ∀ session, s.session = some session →
    session.restored ≠ [] ∧ s.desk.manager.currentSessionId = session.sessionId ∧
      Bounded session.recorded.length s.desk.manager.strategy

theorem unseeded_message (unseeded : s.Unseeded) (role content : String) :
    (s.step lower (.message role content llmCall)).Unseeded := by
  intro session follows
  obtain ⟨before, had, rfl⟩ := Option.map_eq_some_iff.mp follows
  obtain ⟨restored, current, bounded⟩ := unseeded before had
  refine ⟨restored, current, ?_⟩
  change Bounded (before.recorded ++ [_]).length _
  rw [List.length_append]
  exact bounded_onMessage bounded lower _ llmCall

theorem unseeded_run (unseeded : s.Unseeded) (messages : List (String × String × LLMCall)) :
    (run (step lower) s (turns messages)).Unseeded := by
  induction messages generalizing s with
  | nil => exact unseeded
  | cons turn rest ih => exact ih (unseeded_message unseeded turn.1 turn.2.1)

theorem restored_nonempty {manager : MemoryManager} {backend : PersistenceBackend}
    {sessionId : String} {messages : List Dict}
    (found : (manager.restored world backend sessionId).2 = some messages) : messages ≠ [] := by
  unfold MemoryManager.restored at found
  split at found
  · cases found
    exact List.cons_ne_nil _ _
  · cases found

/-- Only a session with messages is restored. -/
theorem restoreSession_nonempty {manager : MemoryManager} {backend : PersistenceBackend}
    {sessionId : String} {messages : List Dict}
    (found : (manager.restoreSession world (some backend) sessionId).2 = some messages) :
    messages ≠ [] := by
  unfold MemoryManager.restoreSession at found
  dsimp only at found
  split at found
  · exact restored_nonempty found
  · split at found
    · exact restored_nonempty found
    · cases found

/-- A session that a new manager restores. -/
theorem unseeded_restore (lower : String → String) (agentId tenant : String)
    (strategy : MemoryStrategy) (backend : PersistenceBackend) (world : World)
    (sessionId : String) :
    (step lower ⟨.begin agentId tenant strategy backend, none⟩
      (.restore world sessionId)).Unseeded := by
  intro session follows
  let s := Desk.begin agentId tenant strategy backend
  have strategy_eq : (s.step lower (.restore world sessionId)).manager.strategy =
      strategy.begin := Desk.strategy_step _
  change (match s.manager.restoreSession world (some backend) sessionId with
    | (manager, some messages) => some _
    | (_, none) => none) = _ at follows
  change _ ∧ (s.step lower (.restore world sessionId)).manager.currentSessionId = _ ∧
    Bounded _ (s.step lower (.restore world sessionId)).manager.strategy
  rw [strategy_eq]
  change _ ∧ (s.manager.restoreSession world (some backend) sessionId).1.currentSessionId = _ ∧ _
  cases result : s.manager.restoreSession world (some backend) sessionId with
  | mk manager found =>
      rw [result] at follows
      cases found with
      | none => cases follows
      | some messages =>
          cases follows
          exact ⟨restoreSession_nonempty (congrArg Prod.snd result), rfl, bounded_begin strategy⟩

/-- What the end of the session stores is less than the restored session and what is new. -/
theorem Unseeded.forgets (unseeded : s.Unseeded) (lower : String → String) (world : World)
    (llmCall : LLMCall) {session : RestoredSession} (restored : s.session = some session)
    (named : session.sessionId ≠ "")
    (ok : (s.desk.manager.onSessionEnd world (some s.desk.backend) llmCall).2.2 = .ok ()) :
    (s.step lower (.sessionEnd world llmCall)).loaded session.sessionId ≠ session.continued := by
  obtain ⟨some_message, current, bounded⟩ := unseeded session restored
  have ok := sessionEnd_ok_iff.mp ok
  have fewer := length_getContext_le bounded ok
  intro same
  rw [loaded_sessionEnd named current] at same
  cases ended : s.desk.manager.strategy.onSessionEnd llmCall with
  | mk strategy result =>
      rw [ended] at ok fewer same
      cases ok
      have lengths := congrArg List.length same
      have positive := List.length_pos_iff.mpr some_message
      unfold RestoredSession.continued at lengths
      rw [List.length_map, List.length_append] at lengths
      change strategy.getContext.length ≤ _ at fewer
      omega

/--
Whatever a new manager restores and records, what the end of the session stores is not the
restored session and what is new.
-/
theorem new_manager_forgets (lower : String → String) (agentId tenant : String)
    (strategy : MemoryStrategy) (backend : PersistenceBackend) (world world' : World)
    (sessionId : String) (messages : List (String × String × LLMCall)) (llmCall : LLMCall)
    {s : Continuation}
    (reached : run (step lower) ⟨.begin agentId tenant strategy backend, none⟩
      (.restore world sessionId :: turns messages) = s)
    {session : RestoredSession} (restored : s.session = some session)
    (named : session.sessionId ≠ "")
    (ok : (s.desk.manager.onSessionEnd world' (some s.desk.backend) llmCall).2.2 = .ok ()) :
    (s.step lower (.sessionEnd world' llmCall)).loaded session.sessionId ≠ session.continued := by
  subst reached
  have unseeded := unseeded_restore lower agentId tenant strategy backend world sessionId
  exact (unseeded_run unseeded messages).forgets lower world' llmCall restored named ok

end Continuation

end YouMi.Memory
