import YouMi.Library.Runs
import YouMi.Memory.Strategies

/-!
# What a summary strategy forgets

A session of the summary strategy beside a journal of it: how many messages were
recorded, and which of them a summary has read that was adopted.  The messages a
strategy holds are always the last ones recorded, so what it has let go is known by
its number.  The journal says exactly at which steps a message goes that no summary has read.
-/

namespace YouMi.Memory

open YouMi.Core YouMi.Library

/-! ## The last messages of a record -/

/--
The messages are the last ones of as many as were recorded, in order; the summarised ones
are among those before them.
-/
structure LastRecorded (messages : List StrategyMessage) (count : Nat) (summarised : List Nat) :
    Prop where
  length_le : messages.length ≤ count
  numbers : messages.map StrategyMessage.number =
    (List.range' (count - messages.length) messages.length).map some
  summarised : ∀ n ∈ summarised, n + messages.length < count

/-- Every recorded message before the last ones was summarised. -/
def AllSummarised (messages : List StrategyMessage) (count : Nat) (summarised : List Nat) : Prop :=
  ∀ n, n + messages.length < count → n ∈ summarised

namespace LastRecorded

variable {messages older kept : List StrategyMessage} {count : Nat} {summarised : List Nat}

theorem mem_numbers_iff (last : LastRecorded messages count summarised) {n : Nat} :
    some n ∈ messages.map StrategyMessage.number ↔ n < count ∧ count ≤ n + messages.length := by
  have := last.length_le
  rw [last.numbers]
  simp only [List.mem_map, Option.some.injEq, exists_eq_right, List.mem_range'_1]
  omega

/-- The numbers of a first and a last part. -/
theorem numbers_append (last : LastRecorded (older ++ kept) count summarised) :
    older.map StrategyMessage.number =
        (List.range' (count - (older ++ kept).length) older.length).map some ∧
      kept.map StrategyMessage.number =
        (List.range' (count - kept.length) kept.length).map some := by
  have bound := last.length_le
  have numbers := last.numbers
  rw [List.length_append] at bound numbers ⊢
  rw [← List.range'_append_1, List.map_append, List.map_append] at numbers
  have parts := List.append_inj numbers (by simp)
  refine ⟨parts.1, parts.2.trans ?_⟩
  congr 2
  omega

theorem record (last : LastRecorded messages count summarised) (role content : String) :
    LastRecorded (messages ++ [⟨role, content, some count⟩]) (count + 1) summarised := by
  have bound := last.length_le
  have start : count + 1 - (messages.length + 1) = count - messages.length := by omega
  have next : count - messages.length + messages.length = count := by omega
  constructor
  · rw [List.length_append, List.length_singleton]
    omega
  · rw [List.map_append, last.numbers, List.length_append, List.length_singleton, start,
      ← List.range'_append_1, List.map_append, next]
    rfl
  · intro n member
    have before := last.summarised n member
    rw [List.length_append, List.length_singleton]
    omega

theorem drop (last : LastRecorded (older ++ kept) count summarised) :
    LastRecorded kept count summarised := by
  have bound := last.length_le
  rw [List.length_append] at bound
  refine ⟨by omega, last.numbers_append.2, fun n member => ?_⟩
  have before := last.summarised n member
  rw [List.length_append] at before
  omega

/-- The numbers of the messages of a first part. -/
theorem mem_older_iff (last : LastRecorded (older ++ kept) count summarised) {n : Nat} :
    n ∈ older.filterMap StrategyMessage.number ↔
      count ≤ n + (older ++ kept).length ∧ n + kept.length < count := by
  have bound := last.length_le
  have same : older.filterMap StrategyMessage.number =
      List.range' (count - (older ++ kept).length) older.length := by
    have numbers := congrArg (List.filterMap id) last.numbers_append.1
    rwa [List.filterMap_map, List.filterMap_map, Function.id_comp, Function.id_comp,
      List.filterMap_some] at numbers
  rw [same, List.mem_range'_1]
  rw [List.length_append] at bound ⊢
  omega

theorem adopt (last : LastRecorded (older ++ kept) count summarised) :
    LastRecorded kept count (summarised ++ older.filterMap StrategyMessage.number) := by
  refine ⟨last.drop.length_le, last.drop.numbers, fun n member => ?_⟩
  rcases List.mem_append.mp member with before | new
  · exact last.drop.summarised n before
  · exact (last.mem_older_iff.mp new).2

/-- Messages that go without a summary are the ones that are missing afterwards. -/
theorem allSummarised_drop (last : LastRecorded (older ++ kept) count summarised) :
    AllSummarised kept count summarised ↔
      older = [] ∧ AllSummarised (older ++ kept) count summarised := by
  have bound := last.length_le
  rw [List.length_append] at bound
  constructor
  · intro all
    constructor
    · by_contra some_older
      have positive := List.length_pos_iff.mpr some_older
      have read := all (count - (older ++ kept).length) (by rw [List.length_append]; omega)
      have before := last.summarised _ read
      rw [List.length_append] at before
      omega
    · intro n before
      rw [List.length_append] at before
      exact all n (by omega)
  · rintro ⟨rfl, all⟩
    exact all

theorem allSummarised_adopt (last : LastRecorded (older ++ kept) count summarised) :
    AllSummarised kept count (summarised ++ older.filterMap StrategyMessage.number) ↔
      AllSummarised (older ++ kept) count summarised := by
  constructor
  · intro all n before
    have gone : n + kept.length < count := by
      rw [List.length_append] at before
      omega
    rcases List.mem_append.mp (all n gone) with old | new
    · exact old
    · have := (last.mem_older_iff.mp new).1
      omega
  · intro all n gone
    by_cases before : n + (older ++ kept).length < count
    · exact List.mem_append_left _ (all n before)
    · exact List.mem_append_right _ (last.mem_older_iff.mpr ⟨by omega, gone⟩)

theorem allSummarised_record (role content : String) :
    AllSummarised (messages ++ [⟨role, content, some count⟩]) (count + 1) summarised ↔
      AllSummarised messages count summarised := by
  unfold AllSummarised
  rw [List.length_append, List.length_singleton]
  refine forall_congr' fun n => imp_congr_left ?_
  omega

end LastRecorded

/-! ## A session and its journal -/

/-- What happens in a session, with what a call of the model would end in. -/
inductive SessionEvent where
  | message (role content : String) (llmCall : LLMCall)
  | sessionEnd (llmCall : LLMCall)

namespace SummaryMemoryStrategy

variable {s : SummaryMemoryStrategy} {llmCall : LLMCall}
  {toSummarize kept : List StrategyMessage}

/-- What stays as it was when the strategy was made. -/
def settings (s : SummaryMemoryStrategy) : Int × Int × Int × Bool :=
  (s.bufferSize, s.summaryInterval, s.maxTotal, s.llm)

theorem settings_summariseTo :
    (s.summariseTo llmCall toSummarize kept).1.settings = s.settings := by
  unfold summariseTo
  cases s.summarise llmCall toSummarize with
  | error fault => rfl
  | ok summary => rfl

/-- What the model is asked to summarise, and which messages are kept when it has answered. -/
structure Request where
  llmCall : LLMCall
  messages : List StrategyMessage
  kept : List StrategyMessage

end SummaryMemoryStrategy

/-- A strategy beside the number of messages it was given. -/
structure Journal where
  strategy : SummaryMemoryStrategy
  count : Nat := 0
  /-- The numbers of the messages that adopted summaries have read. -/
  summarised : List Nat := []

namespace Journal

/-- The messages with a new one. -/
def given (j : Journal) (role content : String) : List StrategyMessage :=
  j.strategy.messages ++ [⟨role, content, some j.count⟩]

/-- The strategy when the model may be asked: a new message is there already. -/
def ready (j : Journal) : SessionEvent → SummaryMemoryStrategy
  | .message role content _ =>
      { j.strategy with messages := limited j.strategy.maxTotal (j.given role content) }
  | .sessionEnd _ => j.strategy

/-- What the model is asked at an event. -/
def request (j : Journal) (event : SessionEvent) : Option SummaryMemoryStrategy.Request :=
  let s := j.ready event
  match event with
  | .message _ _ llmCall =>
      if s.llm ∧ s.summaryInterval ≤ s.messages.length ∧ s.bufferSize < s.messages.length then
        some ⟨llmCall, olderItems s.bufferSize s.messages, lastItems s.bufferSize s.messages⟩
      else none
  | .sessionEnd llmCall =>
      if s.llm ∧ s.messages ≠ [] then some ⟨llmCall, s.messages, []⟩ else none

/-- The numbers of the messages that an event has summarised. -/
def adopted (j : Journal) (event : SessionEvent) : List Nat :=
  match j.request event with
  | some ⟨llmCall, messages, _⟩ =>
      if (j.ready event).outcome llmCall messages = .adopted then
        messages.filterMap StrategyMessage.number
      else []
  | none => []

/-- How many messages were recorded after an event. -/
def counted (j : Journal) : SessionEvent → Nat
  | .message _ _ _ => j.count + 1
  | .sessionEnd _ => j.count

def step (j : Journal) (event : SessionEvent) : Journal where
  strategy :=
    match event with
    | .message role content llmCall =>
        (j.strategy.onMessage ⟨role, content, some j.count⟩ llmCall).1
    | .sessionEnd llmCall => (j.strategy.onSessionEnd llmCall).1
  count := j.counted event
  summarised := j.summarised ++ j.adopted event

/-- Each recorded message is part of the context or was read by an adopted summary. -/
def Remembered (j : Journal) : Prop :=
  ∀ n < j.count, some n ∈ j.strategy.getContext.map StrategyMessage.number ∨ n ∈ j.summarised

/-- The steps after which nothing is missing that was there before. -/
def Keeps (j : Journal) : SessionEvent → Prop
  | .message role content llmCall =>
      let s := j.strategy
      let messages := j.given role content
      Whole s.maxTotal messages.length ∧
        (Whole s.bufferSize messages.length ∨
          s.llm ∧ s.summaryInterval ≤ messages.length ∧
            { s with messages := messages }.outcome llmCall (olderItems s.bufferSize messages) =
              .adopted)
  | .sessionEnd llmCall =>
      j.strategy.llm → j.strategy.messages ≠ [] →
        j.strategy.outcome llmCall j.strategy.messages = .adopted ∨
          j.strategy.outcome llmCall j.strategy.messages = .interrupted

/-- The strategy holds the last messages that were recorded. -/
def HoldsLast (j : Journal) : Prop := LastRecorded j.strategy.messages j.count j.summarised

/-! ## What a step does -/

variable {j : Journal} {role content : String} {llmCall : LLMCall}

theorem strategy_step (event : SessionEvent) :
    (j.step event).strategy =
      match j.request event with
      | some ⟨llmCall, messages, kept⟩ => ((j.ready event).summariseTo llmCall messages kept).1
      | none => j.ready event := by
  cases event with
  | message role content llmCall =>
      change (j.strategy.onMessage _ llmCall).1 = _
      unfold SummaryMemoryStrategy.onMessage SummaryMemoryStrategy.generateSummary request ready given
      dsimp only
      split_ifs <;> first | rfl | grind
  | sessionEnd llmCall =>
      change (j.strategy.onSessionEnd llmCall).1 = _
      unfold SummaryMemoryStrategy.onSessionEnd SummaryMemoryStrategy.generateSummary request ready
      dsimp only
      split_ifs <;> first | rfl | grind

theorem request_parts {event : SessionEvent} {request : SummaryMemoryStrategy.Request}
    (asked : j.request event = some request) :
    request.messages ++ request.kept = (j.ready event).messages := by
  cases event with
  | message role content llmCall =>
      obtain ⟨_, same⟩ := Option.ite_none_right_eq_some.mp asked
      cases same
      exact olderItems_append_lastItems _ _
  | sessionEnd llmCall =>
      obtain ⟨_, same⟩ := Option.ite_none_right_eq_some.mp asked
      cases same
      exact List.append_nil _

/-- A step asks nothing, or the model's answer is adopted, or it is not. -/
theorem step_cases (j : Journal) (event : SessionEvent) :
    ((∀ request, j.request event = some request →
          (j.ready event).outcome request.llmCall request.messages = .interrupted) ∧
        (j.step event).strategy.messages = (j.ready event).messages ∧
        (j.step event).summarised = j.summarised) ∨
      (∃ request, j.request event = some request ∧
        (j.step event).strategy.messages = request.kept ∧
        ((j.ready event).outcome request.llmCall request.messages = .adopted ∧
            (j.step event).summarised =
              j.summarised ++ request.messages.filterMap StrategyMessage.number ∨
          ((j.ready event).outcome request.llmCall request.messages = .empty ∨
              (j.ready event).outcome request.llmCall request.messages = .failed) ∧
            (j.step event).summarised = j.summarised)) := by
  have strategy := strategy_step (j := j) event
  change _ ∧ _ ∧ j.summarised ++ j.adopted event = _ ∨ ∃ request, _ ∧ _ ∧
    (_ ∧ j.summarised ++ j.adopted event = _ ∨ _ ∧ j.summarised ++ j.adopted event = _)
  unfold adopted
  cases asked : j.request event with
  | none =>
      rw [asked] at strategy
      refine .inl ⟨fun _ absent => (nomatch absent), congrArg _ strategy, ?_⟩
      exact List.append_nil _
  | some request =>
      rw [asked] at strategy
      have messages := congrArg SummaryMemoryStrategy.messages strategy
      rw [SummaryMemoryStrategy.messages_summariseTo] at messages
      cases answered : (j.ready event).outcome request.llmCall request.messages with
      | interrupted =>
          rw [if_pos answered] at messages
          refine .inl ⟨?_, messages, ?_⟩
          · rintro _ ⟨⟩
            exact answered
          · simp [answered]
      | adopted =>
          rw [if_neg (by simp [answered])] at messages
          exact .inr ⟨request, rfl, messages, .inl ⟨answered, by simp [answered]⟩⟩
      | empty =>
          rw [if_neg (by simp [answered])] at messages
          exact .inr ⟨request, rfl, messages, .inr ⟨.inl answered, by simp [answered]⟩⟩
      | failed =>
          rw [if_neg (by simp [answered])] at messages
          exact .inr ⟨request, rfl, messages, .inr ⟨.inr answered, by simp [answered]⟩⟩

theorem settings_step (event : SessionEvent) :
    (j.step event).strategy.settings = j.strategy.settings := by
  have ready : (j.ready event).settings = j.strategy.settings := by
    cases event with
    | message role content llmCall => rfl
    | sessionEnd llmCall => rfl
  rw [strategy_step]
  cases j.request event with
  | none => exact ready
  | some request => exact SummaryMemoryStrategy.settings_summariseTo.trans ready

/-! ## The last messages are held -/

/-- What the limit lets go of a strategy that has a new message. -/
theorem ready_parts (j : Journal) (role content : String) (llmCall : LLMCall) :
    ∃ gone, gone ++ (j.ready (.message role content llmCall)).messages =
      j.given role content :=
  limited_suffix _ _

theorem HoldsLast.ready (last : j.HoldsLast) (event : SessionEvent) :
    LastRecorded (j.ready event).messages (j.counted event) j.summarised := by
  cases event with
  | message role content llmCall =>
      obtain ⟨gone, parts⟩ := ready_parts j role content llmCall
      have recorded : LastRecorded (j.given role content) _ _ :=
        LastRecorded.record last role content
      rw [← parts] at recorded
      exact recorded.drop
  | sessionEnd llmCall => exact last

theorem HoldsLast.step (last : j.HoldsLast) (event : SessionEvent) : (j.step event).HoldsLast := by
  have ready := last.ready event
  unfold HoldsLast
  change LastRecorded _ (j.counted event) _
  obtain ⟨_, messages, summarised⟩ | ⟨request, asked, messages, answered⟩ := step_cases j event
  · rw [messages, summarised]
    exact ready
  · rw [messages]
    rw [← request_parts asked] at ready
    obtain ⟨_, summarised⟩ | ⟨_, summarised⟩ := answered
    · rw [summarised]
      exact ready.adopt
    · rw [summarised]
      exact ready.drop

/-- A message that is not handed out is one before the recent ones. -/
theorem remembered_iff_recent (last : j.HoldsLast) :
    j.Remembered ↔ AllSummarised j.strategy.recent j.count j.summarised := by
  have whole : LastRecorded _ j.count j.summarised := last
  rw [← olderItems_append_lastItems j.strategy.bufferSize j.strategy.messages] at whole
  have summary (n : Nat) : some n ∉
      (SummaryMemoryStrategy.summaryMessages j.strategy.summary).map StrategyMessage.number := by
    unfold SummaryMemoryStrategy.summaryMessages
    grind
  refine forall_congr' fun n => ?_
  unfold SummaryMemoryStrategy.getContext
  rw [List.map_append, List.mem_append, or_iff_right (summary n), SummaryMemoryStrategy.recent,
    whole.drop.mem_numbers_iff]
  constructor
  · intro remembered gone
    rcases remembered (by omega) with held | read
    · omega
    · exact read
  · intro all bound
    by_cases held : j.count ≤ n + (lastItems j.strategy.bufferSize j.strategy.messages).length
    · exact .inl ⟨bound, held⟩
    · exact .inr (all (by omega))

/-- Nothing is missing exactly if all messages are handed out and those before them were
summarised. -/
theorem remembered_iff (last : j.HoldsLast) :
    j.Remembered ↔ olderItems j.strategy.bufferSize j.strategy.messages = [] ∧
      AllSummarised j.strategy.messages j.count j.summarised := by
  have whole : LastRecorded _ j.count j.summarised := last
  have parts := olderItems_append_lastItems j.strategy.bufferSize j.strategy.messages
  rw [← parts] at whole
  have recent := whole.allSummarised_drop
  rw [parts] at recent
  exact (remembered_iff_recent last).trans recent

/-! ## When nothing goes missing -/

/-- What was missing before is missing after. -/
theorem allSummarised_of_step (last : j.HoldsLast) {event : SessionEvent}
    (all : AllSummarised (j.step event).strategy.messages (j.counted event)
      (j.step event).summarised) :
    AllSummarised (j.ready event).messages (j.counted event) j.summarised := by
  have ready := last.ready event
  obtain ⟨_, messages, summarised⟩ | ⟨request, asked, messages, answered⟩ := step_cases j event
  · rwa [messages, summarised] at all
  · rw [← request_parts asked] at ready ⊢
    rw [messages] at all
    obtain ⟨_, summarised⟩ | ⟨_, summarised⟩ := answered
    · rw [summarised] at all
      exact ready.allSummarised_adopt.mp all
    · rw [summarised] at all
      exact (ready.allSummarised_drop.mp all).2

theorem given_ne_nil : j.given role content ≠ [] := by
  unfold given
  simp

theorem ready_message (j : Journal) (role content : String) (llmCall : LLMCall) :
    j.ready (.message role content llmCall) =
      { j.strategy with messages := limited j.strategy.maxTotal (j.given role content) } := rfl

/-- With room for all messages, the new one comes after the others. -/
theorem ready_of_whole
    (whole : Whole j.strategy.maxTotal (j.given role content).length) :
    j.ready (.message role content llmCall) =
      { j.strategy with messages := j.given role content } := by
  rw [ready_message, limited_eq_self whole]

/-- Without room for all messages, one goes that no summary has read. -/
theorem whole_of_allSummarised (last : j.HoldsLast)
    (all : AllSummarised (j.ready (.message role content llmCall)).messages (j.count + 1)
      j.summarised) :
    Whole j.strategy.maxTotal (j.given role content).length := by
  obtain ⟨gone, parts⟩ := ready_parts j role content llmCall
  have recorded : LastRecorded (j.given role content) _ _ := LastRecorded.record last role content
  rw [← parts] at recorded
  obtain ⟨nothing, _⟩ := recorded.allSummarised_drop.mp all
  rw [nothing, List.nil_append] at parts
  by_contra cut
  have shorter := length_lastItems_lt given_ne_nil cut
  have past : j.strategy.maxTotal < (j.given role content).length := by
    unfold Whole at cut
    omega
  have short : (j.ready (.message role content llmCall)).messages =
      lastItems j.strategy.maxTotal (j.given role content) := if_pos past
  rw [← short, parts] at shorter
  exact Nat.lt_irrefl _ shorter

theorem olderItems_given_eq_nil_iff :
    olderItems j.strategy.bufferSize (j.given role content) = [] ↔
      Whole j.strategy.bufferSize (j.given role content).length :=
  olderItems_eq_nil_iff given_ne_nil

/-- With room for all messages and too many for the buffer, the model is asked once the interval
is reached. -/
theorem request_message_iff
    (whole : Whole j.strategy.maxTotal (j.given role content).length)
    {request : SummaryMemoryStrategy.Request} :
    j.request (.message role content llmCall) = some request ↔
      (j.strategy.llm ∧ j.strategy.summaryInterval ≤ (j.given role content).length ∧
          j.strategy.bufferSize < (j.given role content).length) ∧
        request = ⟨llmCall, olderItems j.strategy.bufferSize (j.given role content),
          lastItems j.strategy.bufferSize (j.given role content)⟩ := by
  unfold Journal.request
  rw [ready_of_whole whole]
  exact Option.ite_none_right_eq_some.trans (and_congr_right fun _ =>
    ⟨fun same => (Option.some.inj same).symm, fun same => congrArg some same.symm⟩)

/-- A strategy with a negative buffer that has forgotten nothing holds no message. -/
theorem length_given_le_one
    (room : olderItems j.strategy.bufferSize j.strategy.messages = [])
    (negative : j.strategy.bufferSize < 0) : (j.given role content).length ≤ 1 := by
  have nothing : j.strategy.messages = [] := by
    by_contra some_message
    have whole := (olderItems_eq_nil_iff some_message).mp room
    unfold Whole at whole
    omega
  unfold given
  rw [nothing]
  exact Nat.le_refl 1

/-- A message is kept in mind exactly if it fits, or a summary that reads the older messages
is adopted with it. -/
theorem remembered_message_iff (last : j.HoldsLast) (remembered : j.Remembered) :
    (j.step (.message role content llmCall)).Remembered ↔
      j.Keeps (.message role content llmCall) := by
  obtain ⟨room, all⟩ := (remembered_iff last).mp remembered
  have next := last.step (.message role content llmCall)
  have buffer : (j.step (.message role content llmCall)).strategy.bufferSize =
      j.strategy.bufferSize := congrArg Prod.fst (settings_step _)
  have count : (j.step (.message role content llmCall)).count = j.count + 1 := rfl
  rw [remembered_iff next, buffer, count]
  by_cases whole : Whole j.strategy.maxTotal (j.given role content).length
  · have ready : j.ready (.message role content llmCall) = _ := ready_of_whole whole
    have allGiven : AllSummarised (j.given role content) (j.count + 1) j.summarised :=
      (LastRecorded.allSummarised_record role content).mpr all
    have lastGiven : LastRecorded (j.given role content) (j.count + 1) j.summarised :=
      last.record role content
    have parts := olderItems_append_lastItems j.strategy.bufferSize (j.given role content)
    change _ ↔ Whole _ _ ∧ (Whole _ _ ∨ _ ∧ _ ∧ _)
    rw [and_iff_right whole]
    obtain ⟨idle, messages, summarised⟩ | ⟨request, asked, messages, answered⟩ :=
      step_cases j (.message role content llmCall)
    · rw [messages, summarised, ready, and_iff_left allGiven, olderItems_given_eq_nil_iff]
      refine ⟨.inl, ?_⟩
      rintro (fits | ⟨llm, interval, adopted⟩)
      · exact fits
      · by_contra unfit
        have past : j.strategy.bufferSize < (j.given role content).length := by
          unfold Whole at unfit
          omega
        have interrupted := idle _ ((request_message_iff whole).mpr ⟨⟨llm, interval, past⟩, rfl⟩)
        rw [ready] at interrupted
        exact absurd (adopted.symm.trans interrupted) (by decide)
    · obtain ⟨⟨llm, interval, past⟩, rfl⟩ := (request_message_iff whole).mp asked
      rw [ready] at answered
      rw [messages]
      dsimp only at answered ⊢
      rw [← parts] at lastGiven allGiven
      obtain ⟨adopted, summarised⟩ | ⟨refused, summarised⟩ := answered
      · rw [summarised, lastGiven.allSummarised_adopt]
        exact iff_of_true ⟨olderItems_lastItems (length_given_le_one room), allGiven⟩
          (.inr ⟨llm, interval, adopted⟩)
      · have only : ¬(j.strategy.llm ∧ j.strategy.summaryInterval ≤ (j.given role content).length ∧
            { j.strategy with messages := j.given role content }.outcome llmCall
              (olderItems j.strategy.bufferSize (j.given role content)) = .adopted) := by
          rintro ⟨_, _, adopted⟩
          rcases refused with refused | refused
          · exact absurd (adopted.symm.trans refused) (by decide)
          · exact absurd (adopted.symm.trans refused) (by decide)
        rw [summarised, lastGiven.allSummarised_drop, and_iff_left allGiven,
          olderItems_given_eq_nil_iff, or_iff_left only]
        exact and_iff_right_of_imp fun fits => by
          rw [lastItems_eq_self fits]
          exact olderItems_given_eq_nil_iff.mpr fits
  · refine iff_of_false ?_ fun keeps => whole keeps.1
    rintro ⟨_, summarised⟩
    exact whole (whole_of_allSummarised last (allSummarised_of_step last summarised))

/-- The end of a session forgets nothing exactly if what the strategy holds is summarised, or
stays because nothing comes back. -/
theorem remembered_sessionEnd_iff (last : j.HoldsLast) (remembered : j.Remembered) :
    (j.step (.sessionEnd llmCall)).Remembered ↔ j.Keeps (.sessionEnd llmCall) := by
  obtain ⟨room, all⟩ := (remembered_iff last).mp remembered
  have next := last.step (.sessionEnd llmCall)
  have buffer : (j.step (.sessionEnd llmCall)).strategy.bufferSize = j.strategy.bufferSize :=
    congrArg Prod.fst (settings_step _)
  have count : (j.step (.sessionEnd llmCall)).count = j.count := rfl
  have ready : j.ready (.sessionEnd llmCall) = j.strategy := rfl
  have asked_iff (request : SummaryMemoryStrategy.Request) :
      j.request (.sessionEnd llmCall) = some request ↔
        (j.strategy.llm ∧ j.strategy.messages ≠ []) ∧
          request = ⟨llmCall, j.strategy.messages, []⟩ :=
    Option.ite_none_right_eq_some.trans (and_congr_right fun _ =>
      ⟨fun same => (Option.some.inj same).symm, fun same => congrArg some same.symm⟩)
  rw [remembered_iff next, buffer, count]
  change _ ↔ (_ → _ → _ ∨ _)
  obtain ⟨idle, messages, summarised⟩ | ⟨request, asked, messages, answered⟩ :=
    step_cases j (.sessionEnd llmCall)
  · rw [messages, summarised, ready]
    refine iff_of_true ⟨room, all⟩ fun llm some_message => .inr ?_
    exact idle _ ((asked_iff _).mpr ⟨⟨llm, some_message⟩, rfl⟩)
  · obtain ⟨⟨llm, some_message⟩, rfl⟩ := (asked_iff request).mp asked
    rw [ready] at answered
    rw [messages]
    dsimp only at answered ⊢
    have whole : LastRecorded (j.strategy.messages ++ []) j.count j.summarised := by
      rw [List.append_nil]
      exact last
    obtain ⟨adopted, summarised⟩ | ⟨refused, summarised⟩ := answered
    · rw [summarised, whole.allSummarised_adopt, List.append_nil]
      exact iff_of_true ⟨List.take_nil, all⟩ fun _ _ => .inl adopted
    · rw [summarised, whole.allSummarised_drop]
      refine iff_of_false (fun forgotten => some_message forgotten.2.1) fun keeps => ?_
      rcases keeps llm some_message with outcome | outcome
      · rw [outcome] at refused
        exact absurd refused (by decide)
      · rw [outcome] at refused
        exact absurd refused (by decide)

/-- A strategy that has just been made. -/
def begin (settings : SummaryMemoryStrategy) : Journal where
  strategy := { settings with messages := [], summary := none }

/--
Along every session, each recorded message is part of the context or was read by an
adopted summary, exactly if every step keeps it so.
-/
theorem remembered_throughout_iff (settings : SummaryMemoryStrategy) (events : List SessionEvent) :
    Throughout step Remembered (begin settings) events ↔
      StepsMeet step Keeps (begin settings) events := by
  have last : (begin settings).HoldsLast :=
    ⟨Nat.le_refl 0, rfl, fun _ member => absurd member List.not_mem_nil⟩
  refine throughout_iff_stepsMeet HoldsLast Remembered (fun _ event last => last.step event)
    ?_ last (fun n bound => absurd bound (Nat.not_lt_zero n)) events
  intro j event last remembered
  cases event with
  | message role content llmCall => exact remembered_message_iff last remembered
  | sessionEnd llmCall => exact remembered_sessionEnd_iff last remembered

/-- A strategy with the settings of the source forgets the first of eleven messages, whatever
its model answers. -/
theorem eleventh_message_forgets :
    ¬∀ (settings : SummaryMemoryStrategy) (events : List SessionEvent),
      Throughout step Remembered (begin settings) events := by
  intro always
  have remembered := always { llm := true }
    (List.replicate 11 (.message "user" "hi" fun _ => .ok "summary")) 11 0 (by decide)
  exact absurd remembered (by decide)

end Journal

end YouMi.Memory
