import YouMi.Core.ReactLoop
import YouMi.Library.Regex
import YouMi.Python.JsonText

/-!
# Tool calls in the text of an answer

A model without function calling may write its calls into the text of its answer.
`_parse_text_tool_calls` looks for them in code blocks of JSON and, where these have
none, for the name of a tool before an object in parentheses.
-/

namespace YouMi.Core.TextFallback

open YouMi.Library YouMi.Python

structure TextToolCall where
  id : List Char
  type : List Char
  name : List Char
  arguments : List Char

/-- `\s*` -/
def spaces : Pattern Char := .many false isSpace

/-- `_TEXT_TOOL_RE`; its group is an object with one of the keys `tool_call` and `name`. -/
def textToolRe : Pattern Char :=
  .sequence [.literal "```".toList, .optional (.literal "json".toList), spaces,
    .group 1 (.sequence [.literal ['\x7b'], .many true (fun c => c ≠ '\x60'), .literal ['"'],
      .choice [.literal "tool_call".toList, .literal "name".toList], .literal ['"'],
      .many true (fun c => c ≠ '\x60'), .literal ['\x7d']]),
    spaces, .literal "```".toList]

/-- `fn_re`: a name, and an object in parentheses. -/
def fnRe (names : List (List Char)) : Pattern Char :=
  .sequence [.group 1 (.choice (names.map .literal)), spaces, .literal ['('], spaces,
    .group 2 (.sequence [.literal ['\x7b'], .many false (fun c => c ≠ ')'), .literal ['\x7d']]),
    spaces, .literal [')']]

/-! ## Reading code blocks -/

def toolCallKey : List Char := "tool_call".toList

def nameKey : List Char := "name".toList

def argumentsKey : List Char := "arguments".toList

/-- What one code block comes to. -/
inductive BlockOutcome where
  /-- An error that the method does not catch. -/
  | raised
  | skipped
  | request (name : List Char) (arguments : Json)

/-- Arguments that are given as a text are read from it. -/
def decodeArguments : Json → Option Json
  | .str text => Json.loads text
  | arguments => some arguments

/-- The name and the arguments in the object `data`. -/
def readRequest (names : List (List Char)) (data : OrderedDict (List Char) Json) :
    BlockOutcome :=
  match (data.lookup nameKey).getD (.str []) with
  | .str name =>
      if name ≠ [] ∧ name ∈ names then
        match decodeArguments ((data.lookup argumentsKey).getD (.dict [])) with
        | some arguments => .request name arguments
        | none => .skipped
      else .skipped
  -- No other value is a name, and those without a hash raise the `TypeError` that is caught.
  | _ => .skipped

def isToolCallKey : Json → Bool
  | .str text => text = toolCallKey
  | _ => false

/-- The body of the first loop, for the text of one block. -/
def readBlock (names : List (List Char)) (block : List Char) : BlockOutcome :=
  match Json.loads block with
  | none => .skipped
  | some (.dict data) =>
      match data.lookup toolCallKey with
      | none => readRequest names data
      | some (.dict inner) => readRequest names inner
      -- Nothing else has a `get`, and an `AttributeError` is not caught.
      | some _ => .raised
  -- A text or a list with the key in it raises a `TypeError` at the key, and one without
  -- has no `get`; in any other value the key cannot be looked for.
  | some (.str text) => if toolCallKey <:+: text then .skipped else .raised
  | some (.list items) => if items.any isToolCallKey then .skipped else .raised
  | some _ => .skipped

/-- The requests of the blocks in order; `none` if a block raises. -/
def collect : List BlockOutcome → Option (List (List Char × Json))
  | [] => some []
  | .raised :: _ => none
  | .skipped :: later => collect later
  | .request name arguments :: later =>
      (collect later).map fun requests => (name, arguments) :: requests

/-- The texts of the code blocks. -/
def blocks (text : List Char) : List (List Char) :=
  (textToolRe.finditer text).filterMap fun m => m.group 1

/-- A match of the second form whose arguments are JSON. -/
def readFunction (m : Pattern.Match Char) : Option (List Char × Json) :=
  match m.group 1, m.group 2 with
  | some name, some body => (Json.loads body).map fun arguments => (name, arguments)
  | _, _ => none

/-- The requests of the second form. -/
def functionRequests (names : List (List Char)) (text : List Char) :
    List (List Char × Json) :=
  ((fnRe names).finditer text).filterMap readFunction

section Calls

variable (writeNumber : List Char → List Char)

/-- The call that is returned for a request. -/
def textCall (request : List Char × Json) : TextToolCall where
  id := "call_text_".toList ++ request.1
  type := "function".toList
  name := request.1
  arguments := request.2.dumps false writeNumber

/--
`Agent._parse_text_tool_calls`; `none` where it raises.  How a number is written is left
to `writeNumber`.
-/
def parseTextToolCalls (names : List (List Char)) (text : List Char) :
    Option (List TextToolCall) :=
  match collect ((blocks text).map (readBlock names)) with
  | none => none
  | some [] => some ((functionRequests names text).map (textCall writeNumber))
  | some requests => some (requests.map (textCall writeNumber))

end Calls

/-! ## What the patterns find -/

/-- A block begins with a brace. -/
theorem groups_of_reads_textToolRe {read : List Char} {groups : Captures Char}
    (reads : textToolRe.Reads read groups) : ∃ body, groups = [(1, '\x7b' :: body)] := by
  obtain ⟨_, _, one, _, _, rfl, fence, reads⟩ := reads
  obtain ⟨_, _, two, _, _, rfl, language, reads⟩ := reads
  obtain ⟨_, _, _, _, _, rfl, ⟨_, rfl⟩, reads⟩ := reads
  obtain ⟨_, _, _, _, _, rfl, ⟨inner, rfl, object⟩, reads⟩ := reads
  obtain ⟨_, _, _, _, _, rfl, ⟨_, rfl⟩, reads⟩ := reads
  have first : one = [] := Pattern.groups_of_isPlain rfl fence
  have second : two = [] := Pattern.groups_of_isPlain rfl language
  have third : inner = [] := Pattern.groups_of_isPlain rfl object
  have last : _ = [] := Pattern.groups_of_isPlain rfl reads
  obtain ⟨_, body, _, _, rfl, _, brace, _⟩ := object
  obtain ⟨rfl, _⟩ := Pattern.reads_literal_iff.mp brace
  rw [first, second, third, last]
  exact ⟨body, rfl⟩

/-- The name is one of the list, and stands at the beginning of the match. -/
theorem groups_of_reads_fnRe {names : List (List Char)} (nonempty : names ≠ []) {read : List Char}
    {groups : Captures Char} (reads : (fnRe names).Reads read groups) :
    ∃ name ∈ names, name <+: read ∧ ∃ body, groups = [(1, name), (2, '\x7b' :: body)] := by
  obtain ⟨name, rest, _, _, rfl, rfl, ⟨one, rfl, choice⟩, reads⟩ := reads
  obtain ⟨_, _, _, _, _, rfl, ⟨_, rfl⟩, reads⟩ := reads
  obtain ⟨_, _, two, _, _, rfl, opening, reads⟩ := reads
  obtain ⟨_, _, _, _, _, rfl, ⟨_, rfl⟩, reads⟩ := reads
  obtain ⟨_, _, _, _, _, rfl, ⟨inner, rfl, object⟩, reads⟩ := reads
  obtain ⟨_, chosen, choice⟩ :=
    (Pattern.reads_choice_iff (List.map_eq_nil_iff.not.mpr nonempty)).mp choice
  obtain ⟨same, given, rfl⟩ := List.mem_map.mp chosen
  obtain ⟨rfl, rfl⟩ := Pattern.reads_literal_iff.mp choice
  have second : two = [] := Pattern.groups_of_isPlain rfl opening
  have third : inner = [] := Pattern.groups_of_isPlain rfl object
  have last : _ = [] := Pattern.groups_of_isPlain rfl reads
  obtain ⟨_, body, _, _, rfl, _, brace, _⟩ := object
  obtain ⟨rfl, _⟩ := Pattern.reads_literal_iff.mp brace
  rw [second, third, last]
  exact ⟨name, given, List.prefix_append _ _, body, rfl⟩

theorem brace_of_mem_blocks {text block : List Char} (member : block ∈ blocks text) :
    ∃ body, block = '\x7b' :: body := by
  obtain ⟨m, found, isGroup⟩ := List.mem_filterMap.mp member
  obtain ⟨body, groups⟩ := groups_of_reads_textToolRe (Pattern.reads_of_mem_finditer found).2
  rw [Pattern.Match.group, groups] at isGroup
  exact ⟨body, (Option.some.inj isGroup).symm⟩

/-- A request of the second form: a name of the list where it stands, and an object. -/
theorem request_of_readFunction {names : List (List Char)} (nonempty : names ≠ [])
    {text : List Char} {m : Pattern.Match Char} (found : m ∈ (fnRe names).finditer text)
    {request : List Char × Json} (read : readFunction m = some request) :
    request.1 ∈ names ∧ m.before ++ request.1 <+: text ∧
      ∃ entries, request.2 = .dict entries := by
  obtain ⟨inside, reads⟩ := Pattern.reads_of_mem_finditer found
  obtain ⟨name, given, start, body, groups⟩ := groups_of_reads_fnRe nonempty reads
  unfold readFunction Pattern.Match.group at read
  rw [groups] at read
  obtain ⟨arguments, loaded, same⟩ := Option.map_eq_some_iff.mp read
  cases same
  exact ⟨given, ((List.prefix_append_right_inj m.before).mpr start).trans inside,
    Json.loads_brace loaded⟩

theorem request_of_mem_functionRequests {names : List (List Char)} (nonempty : names ≠ [])
    {text : List Char} {request : List Char × Json}
    (member : request ∈ functionRequests names text) :
    request.1 ∈ names ∧ ∃ entries, request.2 = .dict entries := by
  obtain ⟨m, found, read⟩ := List.mem_filterMap.mp member
  obtain ⟨given, _, object⟩ := request_of_readFunction nonempty found read
  exact ⟨given, object⟩

/-! ## What the blocks ask for -/

def BlockOutcome.request? : BlockOutcome → Option (List Char × Json)
  | .request name arguments => some (name, arguments)
  | _ => none

/-- The block asks for a tool of the list, with these arguments. -/
def Asks (names : List (List Char)) (block name : List Char) (arguments : Json) : Prop :=
  ∃ data call, Json.loads block = some (.dict data) ∧
    (data.lookup toolCallKey).getD (.dict data) = .dict call ∧
    call.lookup nameKey = some (.str name) ∧ name ≠ [] ∧ name ∈ names ∧
    decodeArguments ((call.lookup argumentsKey).getD (.dict [])) = some arguments

theorem collect_eq_some_iff {outcomes : List BlockOutcome}
    {requests : List (List Char × Json)} :
    collect outcomes = some requests ↔
      (∀ outcome ∈ outcomes, outcome ≠ .raised) ∧
        outcomes.filterMap BlockOutcome.request? = requests := by
  induction outcomes generalizing requests with
  | nil => simp [collect]
  | cons outcome later ih =>
      cases outcome with
      | raised => simp [collect]
      | skipped =>
          rw [collect, ih, List.forall_mem_cons]
          constructor
          · rintro ⟨returned, same⟩
            exact ⟨⟨nofun, returned⟩, same⟩
          · rintro ⟨⟨_, returned⟩, same⟩
            exact ⟨returned, same⟩
      | request name arguments =>
          rw [collect, Option.map_eq_some_iff, List.forall_mem_cons, List.filterMap_cons]
          constructor
          · rintro ⟨found, collected, rfl⟩
            obtain ⟨returned, same⟩ := ih.mp collected
            exact ⟨⟨nofun, returned⟩, congrArg _ same⟩
          · rintro ⟨⟨_, returned⟩, rfl⟩
            exact ⟨_, ih.mpr ⟨returned, rfl⟩, rfl⟩

theorem readRequest_eq_request_iff {names : List (List Char)}
    {data : OrderedDict (List Char) Json} {name : List Char} {arguments : Json} :
    readRequest names data = .request name arguments ↔
      data.lookup nameKey = some (.str name) ∧ name ≠ [] ∧ name ∈ names ∧
        decodeArguments ((data.lookup argumentsKey).getD (.dict [])) = some arguments := by
  constructor
  · intro read
    unfold readRequest at read
    split at read
    · rename_i found isName
      split at read
      · rename_i named
        split at read
        · rename_i given decoded
          cases read
          refine ⟨?_, named.1, named.2, decoded⟩
          cases present : data.lookup nameKey with
          | none =>
              rw [present] at isName
              cases isName
              exact absurd rfl named.1
          | some value =>
              rw [present] at isName
              exact congrArg some isName
        · cases read
      · cases read
    · cases read
  · rintro ⟨isName, named, given, decoded⟩
    unfold readRequest
    rw [isName, decoded]
    exact if_pos ⟨named, given⟩

theorem readRequest_ne_raised {names : List (List Char)}
    {data : OrderedDict (List Char) Json} : readRequest names data ≠ .raised := by
  unfold readRequest
  split
  · split
    · split <;> nofun
    · nofun
  · nofun

/-- The object in which a block asks for its call. -/
theorem readBlock_of_loads {names : List (List Char)} {block : List Char}
    {data : OrderedDict (List Char) Json} (loaded : Json.loads block = some (.dict data)) :
    readBlock names block =
      match (data.lookup toolCallKey).getD (.dict data) with
      | .dict call => readRequest names call
      | _ => .raised := by
  unfold readBlock
  rw [loaded]
  dsimp only
  cases data.lookup toolCallKey with
  | none => rfl
  | some inner => cases inner <;> rfl

theorem readBlock_eq_request_iff {names : List (List Char)} {block name : List Char}
    {arguments : Json} :
    readBlock names block = .request name arguments ↔ Asks names block name arguments := by
  constructor
  · intro read
    obtain ⟨data, loaded⟩ : ∃ data, Json.loads block = some (.dict data) := by
      unfold readBlock at read
      split at read
      · cases read
      · exact ⟨_, ‹_›⟩
      · split at read <;> cases read
      · split at read <;> cases read
      · cases read
    rw [readBlock_of_loads loaded] at read
    split at read
    · rename_i call wrapped
      exact ⟨data, call, loaded, wrapped, readRequest_eq_request_iff.mp read⟩
    · cases read
  · rintro ⟨data, call, loaded, wrapped, asked⟩
    rw [readBlock_of_loads loaded, wrapped]
    exact readRequest_eq_request_iff.mpr asked

/-- A block raises when it wraps what is no object. -/
theorem readBlock_eq_raised_iff {names : List (List Char)} {text block : List Char}
    (member : block ∈ blocks text) :
    readBlock names block = .raised ↔
      ∃ data inner, Json.loads block = some (.dict data) ∧
        data.lookup toolCallKey = some inner ∧ ∀ call, inner ≠ .dict call := by
  constructor
  · intro raised
    obtain ⟨body, rfl⟩ := brace_of_mem_blocks member
    obtain ⟨value, loaded⟩ : ∃ value, Json.loads ('\x7b' :: body) = some value := by
      unfold readBlock at raised
      split at raised
      · cases raised
      all_goals exact ⟨_, ‹_›⟩
    obtain ⟨data, rfl⟩ := Json.loads_brace loaded
    rw [readBlock_of_loads loaded] at raised
    split at raised
    · exact absurd raised readRequest_ne_raised
    · rename_i other
      cases wrapped : data.lookup toolCallKey with
      | none =>
          rw [wrapped] at other
          exact absurd rfl (other data)
      | some inner =>
          rw [wrapped] at other
          exact ⟨data, inner, loaded, wrapped, other⟩
  · rintro ⟨data, inner, loaded, wrapped, other⟩
    rw [readBlock_of_loads loaded, wrapped]
    cases inner with
    | dict call => exact absurd rfl (other call)
    | _ => rfl

theorem request?_eq_some_iff {outcome : BlockOutcome} {request : List Char × Json} :
    outcome.request? = some request ↔ outcome = .request request.1 request.2 := by
  cases outcome with
  | raised => exact ⟨nofun, nofun⟩
  | skipped => exact ⟨nofun, nofun⟩
  | request name arguments =>
      rw [BlockOutcome.request?, Option.some.injEq, BlockOutcome.request.injEq, Prod.ext_iff]

/-- What the blocks ask for, where none of them raises. -/
def blockRequests (names : List (List Char)) (text : List Char) : List (List Char × Json) :=
  (blocks text).filterMap fun block => (readBlock names block).request?

/-- What stands under `tool_call` in a block is an object. -/
def Wrapped (text : List Char) : Prop :=
  ∀ block ∈ blocks text, ∀ data inner, Json.loads block = some (.dict data) →
    data.lookup toolCallKey = some inner → ∃ call, inner = .dict call

/-- No block asks for a tool of the list. -/
def Unasked (names : List (List Char)) (text : List Char) : Prop :=
  ∀ block ∈ blocks text, ∀ name arguments, ¬Asks names block name arguments

section Blocks

variable {names : List (List Char)} {text : List Char}

theorem mem_blockRequests_iff {request : List Char × Json} :
    request ∈ blockRequests names text ↔
      ∃ block ∈ blocks text, Asks names block request.1 request.2 := by
  simp only [blockRequests, List.mem_filterMap, request?_eq_some_iff, readBlock_eq_request_iff]

theorem pairwise_blockRequests_iff :
    (blockRequests names text).Pairwise (fun first later => first.1 ≠ later.1) ↔
      (blocks text).Pairwise fun first later => ∀ name arguments others,
        Asks names first name arguments → ¬Asks names later name others := by
  rw [blockRequests, List.pairwise_filterMap]
  refine List.Pairwise.iff fun first later => ?_
  simp only [request?_eq_some_iff, readBlock_eq_request_iff]
  constructor
  · intro apart name arguments others one two
    exact apart (name, arguments) one (name, others) two rfl
  · rintro apart ⟨name, arguments⟩ one ⟨other, others⟩ two rfl
    exact apart name arguments others one two

theorem blockRequests_eq_nil_iff : blockRequests names text = [] ↔ Unasked names text := by
  rw [List.eq_nil_iff_forall_not_mem]
  constructor
  · intro none block member name arguments asks
    exact none (name, arguments) (mem_blockRequests_iff.mpr ⟨block, member, asks⟩)
  · intro unasked request member
    obtain ⟨block, found, asks⟩ := mem_blockRequests_iff.mp member
    exact unasked block found _ _ asks

theorem collect_blocks_eq_some_iff {requests : List (List Char × Json)} :
    collect ((blocks text).map (readBlock names)) = some requests ↔
      Wrapped text ∧ requests = blockRequests names text := by
  rw [collect_eq_some_iff, List.forall_mem_map, List.filterMap_map, eq_comm (a := requests)]
  refine and_congr ?_ Iff.rfl
  refine forall₂_congr fun block member => ?_
  rw [ne_eq, readBlock_eq_raised_iff member]
  push Not
  exact Iff.rfl

theorem parseTextToolCalls_eq_some_iff {writeNumber : List Char → List Char}
    {calls : List TextToolCall} :
    parseTextToolCalls writeNumber names text = some calls ↔
      Wrapped text ∧ calls = (if blockRequests names text = [] then functionRequests names text
        else blockRequests names text).map (textCall writeNumber) := by
  constructor
  · intro parsed
    unfold parseTextToolCalls at parsed
    split at parsed
    · cases parsed
    · rename_i collected
      obtain ⟨wrapped, none⟩ := collect_blocks_eq_some_iff.mp collected
      cases parsed
      rw [if_pos none.symm]
      exact ⟨wrapped, rfl⟩
    · rename_i requests nonempty collected
      obtain ⟨wrapped, rfl⟩ := collect_blocks_eq_some_iff.mp collected
      cases parsed
      rw [if_neg nonempty]
      exact ⟨wrapped, rfl⟩
  · rintro ⟨wrapped, rfl⟩
    unfold parseTextToolCalls
    rw [collect_blocks_eq_some_iff.mpr ⟨wrapped, rfl⟩]
    cases blockRequests names text <;> rfl

end Blocks

/-! ## In the loop of the agent -/

/-- The tools that the loop of the agent is given for a text; `fault` is the error. -/
def recognise (writeNumber : List Char → List Char) (fault : Fault) (text : String)
    (toolNames : List String) : Except Fault (List String) :=
  match parseTextToolCalls writeNumber (toolNames.map String.toList) text.toList with
  | none => .error fault
  | some calls => .ok (calls.map fun call => String.ofList call.name)

def TextToolCall.toCall (call : TextToolCall) : ToolCall where
  id := String.ofList call.id
  name := String.ofList call.name

/-- The ids that the loop makes up are those of the calls. -/
theorem parseTextToolCalls_recognise (config : AgentConfig)
    (writeNumber : List Char → List Char) (fault : Fault) (text : String)
    (toolNames : List String) :
    Core.parseTextToolCalls { config with recognise := recognise writeNumber fault } text
        toolNames =
      (parseTextToolCalls writeNumber (toolNames.map String.toList) text.toList).elim
        (.error fault) fun calls => .ok (calls.map TextToolCall.toCall) := by
  change (recognise writeNumber fault text toolNames).map _ = _
  unfold recognise
  cases parsed : parseTextToolCalls writeNumber (toolNames.map String.toList) text.toList with
  | none => rfl
  | some calls =>
      obtain ⟨_, same⟩ := parseTextToolCalls_eq_some_iff.mp parsed
      have ids : ∀ call ∈ calls, call.id = "call_text_".toList ++ call.name := by
        intro call member
        rw [same] at member
        obtain ⟨request, _, rfl⟩ := List.mem_map.mp member
        rfl
      refine congrArg Except.ok (List.map_map.trans ?_)
      refine List.map_congr_left fun call member => ?_
      rw [TextToolCall.toCall, ids call member, String.ofList_append, String.ofList_toList]
      rfl

/-! ## Safe calls -/

/-- The name begins inside a longer identifier, for a notion of its characters. -/
def IsTail (word : Char → Bool) (before name : List Char) : Prop :=
  (∃ c ∈ before.getLast?, word c = true) ∧ ∃ c ∈ name.head?, word c = true

/-- The match of the second form became a call. -/
def Taken (names : List (List Char)) (text : List Char) (m : Pattern.Match Char)
    (request : List Char × Json) : Prop :=
  blockRequests names text = [] ∧ m ∈ (fnRe names).finditer text ∧
    readFunction m = some request

/-- Every call is for a tool of the list with an object, and has an id of its own. -/
structure SafeCalls (writeNumber : List Char → List Char) (names : List (List Char))
    (calls : List TextToolCall) : Prop where
  named : ∀ call ∈ calls, call.name ∈ names
  objects : ∀ call ∈ calls, ∃ entries,
    call.arguments = Json.dumps false writeNumber (.dict entries)
  distinct : (calls.map TextToolCall.id).Nodup

/--
The method returns safe calls, and the names it took from the second form stand in the
text as whole identifiers.
-/
def ParsesSafely (word : Char → Bool) (writeNumber : List Char → List Char)
    (names : List (List Char)) (text : List Char) : Prop :=
  (∃ calls, parseTextToolCalls writeNumber names text = some calls ∧
      SafeCalls writeNumber names calls) ∧
    ∀ m request, Taken names text m request →
      m.before ++ request.1 <+: text ∧ ¬IsTail word m.before request.1

/-- What the text must be like for that. -/
structure AsksSafely (word : Char → Bool) (names : List (List Char)) (text : List Char) :
    Prop where
  wrapped : Wrapped text
  objects : ∀ block ∈ blocks text, ∀ name arguments, Asks names block name arguments →
    ∃ entries, arguments = .dict entries
  once : (blocks text).Pairwise fun first later => ∀ name arguments others,
    Asks names first name arguments → ¬Asks names later name others
  calledOnce : Unasked names text →
    ((fnRe names).finditer text).Pairwise fun first later => ∀ one ∈ readFunction first,
      ∀ two ∈ readFunction later, one.1 ≠ two.1
  whole : Unasked names text → ∀ m ∈ (fnRe names).finditer text,
    ∀ request ∈ readFunction m, ¬IsTail word m.before request.1

section Requests

variable {writeNumber : List Char → List Char} {names : List (List Char)} {text : List Char}
  {requests : List (List Char × Json)}

theorem nodup_ids_iff :
    ((requests.map (textCall writeNumber)).map TextToolCall.id).Nodup ↔
      requests.Pairwise fun first later => first.1 ≠ later.1 := by
  rw [List.map_map, List.Nodup, List.pairwise_map]
  refine List.Pairwise.iff fun first later => not_congr ?_
  exact List.append_right_inj "call_text_".toList

theorem safeCalls_iff (numbers : ∀ literal, (writeNumber literal).head? ≠ some '\x7b') :
    SafeCalls writeNumber names (requests.map (textCall writeNumber)) ↔
      (∀ request ∈ requests, request.1 ∈ names) ∧
        (∀ request ∈ requests, ∃ entries, request.2 = .dict entries) ∧
          requests.Pairwise fun first later => first.1 ≠ later.1 := by
  constructor
  · intro safe
    refine ⟨fun request member => ?_, fun request member => ?_, nodup_ids_iff.mp safe.distinct⟩
    · exact safe.named _ (List.mem_map_of_mem member)
    · obtain ⟨entries, same⟩ := safe.objects _ (List.mem_map_of_mem member)
      exact Json.dumps_eq_dict numbers same
  · rintro ⟨named, objects, once⟩
    refine ⟨?_, ?_, nodup_ids_iff.mpr once⟩
    · intro call member
      obtain ⟨request, found, rfl⟩ := List.mem_map.mp member
      exact named request found
    · intro call member
      obtain ⟨request, found, rfl⟩ := List.mem_map.mp member
      obtain ⟨entries, same⟩ := objects request found
      exact ⟨entries, congrArg _ same⟩

end Requests

end YouMi.Core.TextFallback
