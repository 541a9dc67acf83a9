import YouMi.Llm.ChatStream

/-!
# What a stream leaves

The response after a stream has what the last attempt sent: its text, and for each index
one tool call, put together from the fragments with that index.
-/

namespace YouMi.Llm

open YouMi.Core YouMi.Core.RetryCall YouMi.Library

/-! ## The promise -/

/-- The last text that is not empty, if there is one. -/
def lastNonEmpty (texts : List (List Char)) : List Char :=
  (texts.reverse.find? fun text => text ≠ []).getD []

/-- The fragments of tool calls, in their order. -/
def fragments (chunks : List Chunk) : List ToolCallDelta := chunks.flatMap Chunk.toolCalls

/-- The fragments with an index. -/
def fragmentsAt (chunks : List Chunk) (index : Int) : List ToolCallDelta :=
  (fragments chunks).filter fun delta => delta.index = index

/-- The call has the last name and the last id that are not empty, an id in any case, and all
arguments in their order. -/
structure PutTogether (given : List ToolCallDelta) (call : ToolCall) : Prop where
  name : call.name = lastNonEmpty (given.map ToolCallDelta.name)
  arguments : call.arguments = (given.map ToolCallDelta.arguments).flatten
  hasId : call.id ≠ []
  id : lastNonEmpty (given.map ToolCallDelta.id) ≠ [] →
    call.id = lastNonEmpty (given.map ToolCallDelta.id)

/-- The response has the text of the chunks, and one tool call for each index, in their order. -/
structure Reflects (chunks : List Chunk) (response : LLMResponse) : Prop where
  text : response.text = (chunks.map Chunk.content).flatten
  toolCalls : ∃ indices : List Int, indices.Pairwise (· < ·) ∧
    (∀ index, index ∈ indices ↔ ∃ delta ∈ fragments chunks, delta.index = index) ∧
    List.Forall₂ (fun index call => PutTogether (fragmentsAt chunks index) call) indices
      response.toolCalls

/-- The attempt ends with an error that may be mended, before any text has come. -/
def Attempt.FailsSilently (attempt : Attempt) : Prop :=
  (∃ error, attempt.error = some error ∧ isRetryableLlmError error = true) ∧
    ∀ chunk ∈ attempt.chunks, chunk.reasoning = [] ∧ chunk.content = []

/-! ## Tool calls -/

theorem foldl_lastNonEmpty {α : Type} (text : α → List Char) (items : List α)
    (first : List Char) :
    items.foldl (fun last item => if text item = [] then last else text item) first =
      if lastNonEmpty (items.map text) = [] then first else lastNonEmpty (items.map text) := by
  induction items using List.reverseRecOn with
  | nil => rfl
  | append_singleton items item ih =>
      have later : lastNonEmpty ((items ++ [item]).map text) =
          if text item = [] then lastNonEmpty (items.map text) else text item := by
        unfold lastNonEmpty
        rw [List.map_append, List.reverse_append, List.map_singleton, List.reverse_singleton,
          List.singleton_append, List.find?_cons]
        by_cases empty : text item = []
        · simp [empty]
        · simp [empty]
      rw [List.foldl_append, List.foldl_cons, List.foldl_nil, ih, later]
      by_cases empty : text item = []
      · rw [if_pos empty, if_pos empty]
      · rw [if_neg empty, if_neg empty, if_neg empty]

/-- Fragments that are added to an empty call. -/
theorem foldl_absorb (given : List ToolCallDelta) :
    given.foldl ToolCall.absorb {} =
      { id := lastNonEmpty (given.map ToolCallDelta.id)
        name := lastNonEmpty (given.map ToolCallDelta.name)
        arguments := (given.map ToolCallDelta.arguments).flatten } := by
  have fields (call : ToolCall) : given.foldl ToolCall.absorb call =
      { id := given.foldl (fun last delta => if delta.id = [] then last else delta.id) call.id
        name :=
          given.foldl (fun last delta => if delta.name = [] then last else delta.name) call.name
        arguments := call.arguments ++ (given.map ToolCallDelta.arguments).flatten } := by
    induction given generalizing call with
    | nil => simp
    | cons delta rest ih =>
        rw [List.foldl_cons, ih]
        simp [ToolCall.absorb]
  rw [fields, foldl_lastNonEmpty, foldl_lastNonEmpty]
  simp

/-- A new call that begins with the id of its first fragment is one that begins empty. -/
theorem addToolCall_eq :
    addToolCall = OrderedDict.gather ToolCallDelta.index {} ToolCall.absorb := by
  funext toolCalls delta
  unfold addToolCall OrderedDict.gather
  cases toolCalls.lookup delta.index with
  | some existing => rfl
  | none =>
      have same : ToolCall.absorb { id := delta.id } delta = ToolCall.absorb {} delta := by
        unfold ToolCall.absorb
        by_cases empty : delta.id = []
        · simp [empty]
        · simp [empty]
      exact congrArg (toolCalls.assign delta.index) same

namespace Collected

variable {collected : Collected} {chunks : List Chunk}

theorem toolCalls_foldl_add (chunks : List Chunk) (collected : Collected) :
    (chunks.foldl add collected).toolCalls =
      (fragments chunks).foldl addToolCall collected.toolCalls := by
  induction chunks generalizing collected with
  | nil => rfl
  | cons chunk rest ih =>
      have first : fragments (chunk :: rest) = chunk.toolCalls ++ fragments rest :=
        List.flatMap_cons
      rw [List.foldl_cons, ih, first, List.foldl_append]
      rfl

theorem content_foldl_add (chunks : List Chunk) (collected : Collected) :
    (chunks.foldl add collected).content.flatten =
      collected.content.flatten ++ (chunks.map Chunk.content).flatten := by
  induction chunks generalizing collected with
  | nil => simp
  | cons chunk rest ih =>
      rw [List.foldl_cons, ih, List.map_cons, List.flatten_cons, ← List.append_assoc]
      congr 1
      unfold add
      dsimp only
      split
      · rename_i empty
        rw [empty, List.append_nil]
      · rw [List.flatten_append, List.flatten_singleton]

/-- Only text counts as text. -/
theorem receivedContent_foldl_add (chunks : List Chunk) (collected : Collected)
    (silent : ∀ chunk ∈ chunks, chunk.reasoning = [] ∧ chunk.content = []) :
    (chunks.foldl add collected).receivedContent = collected.receivedContent := by
  induction chunks generalizing collected with
  | nil => rfl
  | cons chunk rest ih =>
      obtain ⟨noReasoning, noContent⟩ := silent chunk List.mem_cons_self
      rw [List.foldl_cons, ih _ fun later member => silent later (List.mem_cons_of_mem _ member)]
      simp [add, noReasoning, noContent]

/-- The response to the chunks of one attempt. -/
theorem reflects_response (freshId : Nat → List Char) (chunks : List Chunk) :
    Reflects chunks ((chunks.foldl add {}).response freshId) where
  text := by
    have text := content_foldl_add chunks {}
    rw [List.flatten_nil, List.nil_append] at text
    unfold LLMResponse.text response
    dsimp only
    rw [← text]
    split
    · rename_i empty
      rw [empty]
      rfl
    · rfl
  toolCalls := by
    have calls : (chunks.foldl add {}).toolCalls = (fragments chunks).foldl
        (OrderedDict.gather ToolCallDelta.index {} ToolCall.absorb) [] := by
      rw [toolCalls_foldl_add, addToolCall_eq]
    have keys (index : Int) : index ∈ (chunks.foldl add {}).toolCalls.keys ↔
        ∃ delta ∈ fragments chunks, delta.index = index := by
      rw [calls, OrderedDict.mem_keys_foldl_gather]
      exact or_iff_right List.not_mem_nil
    have distinct : (chunks.foldl add {}).toolCalls.keys.Nodup := by
      rw [calls]
      exact OrderedDict.nodup_keys_foldl_gather _ _ _ _ List.nodup_nil
    refine ⟨(chunks.foldl add {}).toolCalls.keys.insertionSort (· ≤ ·), ?_, fun index => ?_, ?_⟩
    · have sorted := List.pairwise_insertionSort (· ≤ ·) (chunks.foldl add {}).toolCalls.keys
      have apart := ((List.perm_insertionSort (· ≤ ·) _).nodup_iff).mpr distinct
      exact (sorted.and apart).imp fun ⟨below, other⟩ => lt_of_le_of_ne below other
    · rw [List.mem_insertionSort]
      exact keys index
    · unfold response sortedCalls
      dsimp only
      rw [List.forall₂_iff_get]
      refine ⟨by simp, fun place inIndices inCalls => ?_⟩
      have gathered (index : Int) : ((chunks.foldl add {}).toolCalls.lookup index).getD {} =
          (fragmentsAt chunks index).foldl ToolCall.absorb {} := by
        rw [calls]
        exact OrderedDict.lookup_foldl_gather _ _ _ (fragments chunks) [] index
      simp only [List.get_eq_getElem, List.getElem_mapIdx, List.getElem_map]
      rw [gathered, foldl_absorb]
      refine ⟨rfl, rfl, ?_, fun some => if_neg some⟩
      unfold ToolCall.withId
      dsimp only
      split
      · exact List.append_ne_nil_of_left_ne_nil (by decide) _
      · assumption

end Collected

/-! ## Attempts -/

namespace StreamCall

variable {F : Type} [Floats F] {call : StreamCall F}

/-- Another attempt may follow one with this number: there are retries left, and the delay neither
overflows nor is infinite. -/
structure Retries (policy : RetryPolicy F) (attempts : Nat) : Prop where
  left : attempts ≤ policy.maxRetries
  fits : ¬Overflows policy attempts
  finite : cappedDelay policy attempts ≠ ⊤

/-- After an attempt that fails silently nothing is left of it, and the next one begins anew. -/
theorem loop_of_fails {attempts : Nat} (fails : (call.attempt attempts).FailsSilently) :
    Retries call.policy attempts ∧ call.loop {} attempts = call.loop {} (attempts + 1) ∨
      ¬Retries call.policy attempts ∧ ∀ response, call.loop {} attempts ≠ .answered response := by
  obtain ⟨⟨error, failed, retryable⟩, silent⟩ := fails
  have noText : ((call.attempt attempts).chunks.foldl Collected.add {}).receivedContent = false :=
    Collected.receivedContent_foldl_add _ _ silent
  rw [loop, failed]
  dsimp only
  rw [noText, retryable]
  by_cases left : attempts ≤ call.policy.maxRetries
  · have goesOn : ¬(false = true ∨ true = false ∨ call.policy.maxRetries < attempts) := by
      simpa using left
    rw [dif_neg goesOn]
    rcases computeBackoffDelay_cases call.policy attempts with ⟨exceeded, none⟩ | ⟨fits, delay⟩
    · rw [none]
      exact .inr ⟨fun retries => retries.fits exceeded, nofun⟩
    · rw [delay]
      dsimp only
      by_cases infinite : cappedDelay call.policy attempts = ⊤
      · rw [if_pos infinite]
        exact .inr ⟨fun retries => retries.finite infinite, nofun⟩
      · rw [if_neg infinite]
        refine .inl ⟨⟨left, fits, infinite⟩, ?_⟩
        rw [Collected.clear, noText]
  · have stops : false = true ∨ true = false ∨ call.policy.maxRetries < attempts :=
      .inr (.inr (Nat.lt_of_not_le left))
    rw [dif_pos stops]
    exact .inr ⟨fun retries => left retries.left, nofun⟩

/-- An attempt that ends without an error is answered with what it has sent. -/
theorem loop_of_finishes {attempts : Nat} (finishes : (call.attempt attempts).error = none) :
    call.loop {} attempts = .answered
      (((call.attempt attempts).chunks.foldl Collected.add {}).response call.freshId) := by
  rw [loop, finishes]

/-- By induction on the attempts that fail. -/
theorem loop_of_failures (failures first : Nat)
    (fails : ∀ later < failures, (call.attempt (first + later)).FailsSilently)
    (finishes : (call.attempt (first + failures)).error = none) :
    (∀ response, call.loop {} first = .answered response →
        Reflects (call.attempt (first + failures)).chunks response) ∧
      ((∃ response, call.loop {} first = .answered response) ↔
        ∀ later < failures, Retries call.policy (first + later)) := by
  induction failures generalizing first with
  | zero =>
      have answered := loop_of_finishes finishes
      refine ⟨fun response same => ?_, iff_of_true ⟨_, answered⟩ nofun⟩
      cases answered.symm.trans same
      exact Collected.reflects_response call.freshId _
  | succ failures ih =>
      have shift (later : Nat) : first + 1 + later = first + (later + 1) := by omega
      obtain ⟨reflects, returns⟩ := ih (first + 1)
        (fun later less => by rw [shift]; exact fails (later + 1) (Nat.succ_lt_succ less))
        (by rw [shift]; exact finishes)
      rw [shift] at reflects
      rcases loop_of_fails (fails 0 (Nat.succ_pos _)) with ⟨retries, next⟩ | ⟨ends, unanswered⟩
      · have next : call.loop {} first = call.loop {} (first + 1) := next
        rw [next]
        refine ⟨reflects, returns.trans ⟨fun others later less => ?_, fun others later less => ?_⟩⟩
        · cases later with
          | zero => exact retries
          | succ later =>
              rw [← shift]
              exact others later (Nat.lt_of_succ_lt_succ less)
        · rw [shift]
          exact others (later + 1) (Nat.succ_lt_succ less)
      · exact ⟨fun response same => absurd same (unanswered response),
          iff_of_false (fun ⟨response, same⟩ => unanswered response same)
            fun all => ends (all 0 (Nat.succ_pos _))⟩

/-- A fragment of a tool call, and then the connection breaks. -/
def interrupted : Attempt where
  lines := [("data: \x7b\"choices\": [\x7b\"delta\": \x7b\"tool_calls\": [\x7b\"index\": 0, " ++
    "\"id\": \"a\", \"function\": \x7b\"name\": \"f\"\x7d\x7d]\x7d\x7d]\x7d").toList]
  ending := some .transport
  wellFormed := by decide +kernel

/-- A line that is not JSON, a text, and the end. -/
def greeting : Attempt where
  lines := ["data: \x7b".toList,
    "data: \x7b\"choices\": [\x7b\"delta\": \x7b\"content\": \"hello\"\x7d\x7d]\x7d".toList,
    "data: [DONE]".toList]
  wellFormed := by decide +kernel

def interruptedOnce : StreamCall (WithTop Nat) where
  policy := (alwaysTimesOut .fixed 1).policy
  attempt := fun number => if number = 1 then interrupted else greeting
  freshId := fun _ => []
  admitted := true

end StreamCall

end YouMi.Llm
