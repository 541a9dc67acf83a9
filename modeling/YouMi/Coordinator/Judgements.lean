import YouMi.Knowledge.ExperienceExtractor
import YouMi.Coordinator.RightlyCounted

/-!
# Two judgements of one message

The collector and the extractor read the same tool messages.  They judge them alike, and
the collector counts each of them once, if the ids of the calls are used once for each
tool and no text is JSON that only the collector takes for an error.
-/

namespace YouMi.Coordinator

open YouMi.Core YouMi.Knowledge YouMi.Library YouMi.Python

/-! ## Errors in a text -/

/-- The error in the JSON object of a text. -/
def errorOf (content : List Char) : Option Json :=
  match Json.loads content with
  | some (.dict entries) => entries.lookup Json.errorKey
  | _ => none

def isText : Json → Bool
  | .str _ => true
  | _ => false

/-- The slice of an error ends the collection: as a key it is missing, as a list it is no text. -/
def breaks (hashableSlices : Bool) : Json → Bool
  | .list _ => true
  | .dict _ => hashableSlices
  | _ => false

/-- The texts among the errors of a tool, of which the collector notes three. -/
def notedErrors (toolName : String) (given : List Reading) : Nat :=
  (ofTool toolName given).countP fun reading => (errorOf reading.content).any isText

theorem isError_eq (content : List Char) : isError content = (errorOf content).isSome := by
  unfold isError errorOf
  cases Json.loads content with
  | none => rfl
  | some data => cases data <;> rfl

/-- The collector takes what the extractor takes for an error, and more. -/
theorem mentionsError_of_errorOf {content : List Char} {error : Json}
    (found : errorOf content = some error) : MentionsError content := by
  unfold errorOf at found
  split at found
  · rename_i entries read
    refine ⟨_, read, ?_⟩
    rw [errorIn, found]
    rfl
  · cases found

theorem isErrorObject_iff {stats : ToolStats} {content : List Char} :
    IsErrorObject stats content ↔ ∃ error, errorOf content = some error ∧
      (isText error = true ∨ 3 ≤ stats.failures.length) := by
  constructor
  · rintro ⟨entries, error, read, found, shape⟩
    refine ⟨error, by rw [errorOf, read]; exact found, shape.imp_left ?_⟩
    rintro ⟨text, rfl⟩
    rfl
  · rintro ⟨error, found, shape⟩
    unfold errorOf at found
    split at found
    · rename_i entries read
      refine ⟨entries, error, read, found, shape.imp_left fun isTextual => ?_⟩
      cases error with
      | str text => exact ⟨text, rfl⟩
      | null | bool | number | list | dict => cases isTextual
    · cases found

/-! ## What is noted -/

namespace ToolStats

variable {hashableSlices : Bool} {stats after : ToolStats} {content : List Char}

/-- Of so many errors that are texts, three are noted, and nothing else. -/
structure Notes (stats : ToolStats) (errors : Nat) : Prop where
  recordable : stats.Recordable
  noted : stats.failures.length = min 3 errors

theorem Notes.room_iff {errors : Nat} (notes : stats.Notes errors) :
    stats.failures.length < 3 ↔ errors < 3 := by
  rw [notes.noted]
  omega

/-- The count of an error in an object. -/
theorem count_of_errorOf (hashableSlices : Bool) (stats : ToolStats) {error : Json}
    (found : errorOf content = some error) :
    ∃ entries, entries.lookup Json.errorKey = some error ∧
      stats.count hashableSlices content =
        ({ stats with failure := stats.failure + 1 } : ToolStats).noteError hashableSlices
          (.dict entries) := by
  unfold errorOf at found
  split at found
  · rename_i entries read
    refine ⟨entries, found, ?_⟩
    have mentions : errorIn (.dict entries) = some true := by
      rw [errorIn, found]
      rfl
    unfold count
    rw [read]
    dsimp only
    rw [mentions]
  · cases found

/-- Without an error in an object nothing is noted. -/
theorem count_of_errorOf_eq_none (hashableSlices : Bool) (stats : ToolStats)
    (absent : errorOf content = none) :
    ∃ after, stats.count hashableSlices content = some after ∧
      after.failures = stats.failures := by
  unfold errorOf at absent
  unfold count
  cases read : Json.loads content with
  | none => exact ⟨_, rfl, rfl⟩
  | some data =>
      rw [read] at absent
      dsimp only
      cases mentions : errorIn data with
      | none => exact ⟨_, rfl, rfl⟩
      | some error =>
          cases error with
          | false => exact ⟨_, rfl, rfl⟩
          | true =>
              cases data with
              | dict entries =>
                  have present : (entries.lookup Json.errorKey).isSome = true :=
                    Option.some.inj mentions
                  rw [show entries.lookup Json.errorKey = none from absent] at present
                  cases present
              | list | str => exact ⟨_, rfl, rfl⟩
              | null | bool | number => cases mentions

/-- What a text adds to the errors that are texts. -/
def errorsIn (content : List Char) : Nat := if (errorOf content).any isText then 1 else 0

/-- A text is counted, and what is noted stays texts, unless its error breaks the collection. -/
theorem count_notes {errors : Nat} (notes : stats.Notes errors)
    (settles : errors < 3 → ∀ error ∈ errorOf content, breaks hashableSlices error = false) :
    ∃ after, stats.count hashableSlices content = some after ∧
      after.Notes (errors + errorsIn content) := by
  cases found : errorOf content with
  | none =>
      obtain ⟨after, done, same⟩ := count_of_errorOf_eq_none hashableSlices stats found
      refine ⟨after, done, ?_, ?_⟩
      · unfold Recordable
        rw [same]
        exact notes.recordable
      · rw [same, notes.noted, errorsIn, found]
        rfl
  | some error =>
      obtain ⟨entries, isEntry, same⟩ := count_of_errorOf hashableSlices stats found
      rw [same]
      unfold noteError
      dsimp only
      split
      · rename_i room
        have unbroken := settles (notes.room_iff.mp room) error found
        rw [isEntry]
        cases error with
        | str text =>
            refine ⟨_, rfl, ?_, ?_⟩
            · intro pattern member
              rcases List.mem_append.mp member with old | new
              · exact notes.recordable pattern old
              · rw [List.mem_singleton.mp new]
                rfl
            · have few := notes.room_iff.mp room
              rw [List.length_append, notes.noted, errorsIn, found]
              change min 3 errors + 1 = min 3 (errors + 1)
              omega
        | list items => cases unbroken
        | dict inner =>
            rw [show hashableSlices = false from unbroken]
            exact ⟨_, rfl, notes.recordable, by rw [errorsIn, found]; exact notes.noted⟩
        | null | bool | number =>
            exact ⟨_, rfl, notes.recordable, by rw [errorsIn, found]; exact notes.noted⟩
      · rename_i full
        refine ⟨_, rfl, notes.recordable, ?_⟩
        have many := mt notes.room_iff.mpr full
        dsimp only
        rw [notes.noted]
        omega

/-- Otherwise an exception leaves the loop, or a list is noted. -/
theorem count_breaks {error : Json} (room : stats.failures.length < 3)
    (found : errorOf content = some error) (isBroken : breaks hashableSlices error = true)
    (done : stats.count hashableSlices content = some after) : ¬after.Recordable := by
  obtain ⟨entries, isEntry, same⟩ := count_of_errorOf hashableSlices stats found
  rw [same, noteError] at done
  dsimp only at done
  rw [if_pos room, isEntry] at done
  cases error with
  | list items =>
      cases done
      exact fun recordable => absurd (recordable none (by simp)) (by decide)
  | dict inner =>
      rw [show hashableSlices = true from isBroken] at done
      cases done
  | null | bool | number | str => cases isBroken

/-- What is noted stays. -/
theorem failures_prefix (done : stats.count hashableSlices content = some after) :
    stats.failures <+: after.failures := by
  cases found : errorOf content with
  | none =>
      obtain ⟨other, isOther, same⟩ := count_of_errorOf_eq_none hashableSlices stats found
      cases isOther.symm.trans done
      rw [same]
  | some error =>
      obtain ⟨entries, -, same⟩ := count_of_errorOf hashableSlices stats found
      rw [same, noteError] at done
      dsimp only at done
      split at done
      · split at done
        · cases done
          exact List.prefix_append _ _
        · cases done
          exact List.prefix_append _ _
        · split at done
          · cases done
          · cases done
            exact List.prefix_rfl
        · cases done
          exact List.prefix_rfl
      · cases done
        exact List.prefix_rfl

end ToolStats

/-! ## A collection that ends -/

/-- The reading does not break the collection: three errors have been noted, or its own does not
break it. -/
def Settles (hashableSlices : Bool) (given : List Reading) (reading : Reading) : Prop :=
  notedErrors reading.toolName given < 3 →
    ∀ error ∈ errorOf reading.content, breaks hashableSlices error = false

/-- So it is with every reading, after those before it. -/
def AllSettle (hashableSlices : Bool) (given rest : List Reading) : Prop :=
  StepsMeet (fun given reading => given ++ [reading]) (Settles hashableSlices) given rest

section

variable {hashableSlices : Bool} {stats after : OrderedDict String ToolStats}
  {given rest : List Reading} {reading : Reading}

/-- The statistics of every tool note the errors of its readings. -/
def NoteAll (stats : OrderedDict String ToolStats) (given : List Reading) : Prop :=
  ∀ toolName, ((stats.lookup toolName).getD {}).Notes (notedErrors toolName given)

theorem noteAll_nil : NoteAll [] [] := fun _ => ⟨nofun, rfl⟩

theorem notedErrors_append_self (given : List Reading) (reading : Reading) :
    notedErrors reading.toolName (given ++ [reading]) =
      notedErrors reading.toolName given + ToolStats.errorsIn reading.content := by
  unfold notedErrors ToolStats.errorsIn
  rw [ofTool, List.filter_append, List.countP_append, List.filter_cons_of_pos (by simp),
    List.filter_nil, List.countP_singleton]
  rfl

theorem notedErrors_append_ne {toolName : String} (given : List Reading)
    (other : reading.toolName ≠ toolName) :
    notedErrors toolName (given ++ [reading]) = notedErrors toolName given := by
  unfold notedErrors
  rw [ofTool, List.filter_append, List.filter_cons_of_neg (by simpa using other),
    List.filter_nil, List.append_nil]
  rfl

/-- A reading that settles is counted. -/
theorem countReading_notes (notes : NoteAll stats given)
    (settles : Settles hashableSlices given reading) :
    ∃ after, countReading hashableSlices stats reading = some after ∧
      NoteAll after (given ++ [reading]) := by
  obtain ⟨counted, done, noted⟩ := ToolStats.count_notes (notes reading.toolName) settles
  refine ⟨_, Option.map_eq_some_iff.mpr ⟨counted, done, rfl⟩, fun toolName => ?_⟩
  by_cases same : reading.toolName = toolName
  · rw [← same, OrderedDict.lookup_assign_self, notedErrors_append_self]
    exact noted
  · rw [OrderedDict.lookup_assign_ne (Ne.symm same), notedErrors_append_ne given same]
    exact notes toolName

theorem toolStats_notes (notes : NoteAll stats given)
    (settle : AllSettle hashableSlices given rest) :
    ∃ after, toolStats hashableSlices stats rest = some after ∧ NoteAll after (given ++ rest) := by
  induction rest generalizing stats given with
  | nil => exact ⟨stats, rfl, by rwa [List.append_nil]⟩
  | cons reading rest ih =>
      obtain ⟨middle, first, noted⟩ := countReading_notes notes settle.1
      obtain ⟨after, later, notedLater⟩ := ih noted settle.2
      refine ⟨after, ?_, ?_⟩
      · rw [toolStats, first]
        exact later
      · rwa [List.append_assoc, List.singleton_append] at notedLater

/-- What is noted of a tool stays. -/
theorem toolStats_grows (done : toolStats hashableSlices stats rest = some after)
    (toolName : String) :
    ((stats.lookup toolName).getD {}).failures <+: ((after.lookup toolName).getD {}).failures := by
  induction rest generalizing stats with
  | nil =>
      cases done
      exact List.prefix_rfl
  | cons reading rest ih =>
      obtain ⟨middle, first, later⟩ := Option.bind_eq_some_iff.mp done
      obtain ⟨here, elsewhere⟩ := countReading_lookup toolName first
      refine List.IsPrefix.trans ?_ (ih later)
      by_cases same : reading.toolName = toolName
      · exact ToolStats.failures_prefix (here same)
      · rw [elsewhere same]

/-- A collection that ends with texts has settled all the time. -/
theorem allSettle_of_toolStats (notes : NoteAll stats given)
    (done : toolStats hashableSlices stats rest = some after)
    (recordable : ∀ toolName, ((after.lookup toolName).getD {}).Recordable) :
    AllSettle hashableSlices given rest := by
  induction rest generalizing stats given with
  | nil => trivial
  | cons reading rest ih =>
      obtain ⟨middle, first, later⟩ := Option.bind_eq_some_iff.mp done
      have here := (countReading_lookup reading.toolName first).1 rfl
      have settles : Settles hashableSlices given reading := by
        intro room error found
        by_contra notUnbroken
        have isBroken : breaks hashableSlices error = true := by simpa using notUnbroken
        refine ToolStats.count_breaks ((notes reading.toolName).room_iff.mpr room) found isBroken
          here fun pattern member => ?_
        exact recordable reading.toolName pattern
          ((toolStats_grows later reading.toolName).subset member)
      obtain ⟨counted, isCounted, noted⟩ := countReading_notes notes settles
      cases isCounted.symm.trans first
      exact ⟨settles, ih noted later⟩

theorem recordable_iff (distinct : stats.keys.Nodup) :
    (∀ entry ∈ stats, entry.2.Recordable) ↔
      ∀ toolName, ((stats.lookup toolName).getD {}).Recordable := by
  constructor
  · intro each toolName
    cases found : stats.lookup toolName with
    | none => exact nofun
    | some stat => exact each (toolName, stat) (OrderedDict.mem_of_lookup found)
  · rintro each ⟨toolName, stat⟩ member
    have recordable := each toolName
    rw [OrderedDict.lookup_eq_some_of_mem distinct member] at recordable
    exact recordable

/-- The collection does not raise exactly if all readings settle. -/
theorem collects_iff (conversations : List (List Entry)) :
    (∃ experiences, collectToolExperiences hashableSlices conversations = some experiences) ↔
      AllSettle hashableSlices [] (conversations.flatMap readings) := by
  unfold collectToolExperiences
  constructor
  · rintro ⟨experiences, collected⟩
    obtain ⟨stats, counted, built⟩ := Option.bind_eq_some_iff.mp collected
    split at built
    · rename_i recordable
      exact allSettle_of_toolStats noteAll_nil counted
        ((recordable_iff ((toolStats_keys counted).1 List.nodup_nil)).mp recordable)
    · cases built
  · intro settle
    obtain ⟨stats, counted, notes⟩ := toolStats_notes noteAll_nil settle
    have recordable := (recordable_iff ((toolStats_keys counted).1 List.nodup_nil)).mpr
      fun toolName => (notes toolName).recordable
    rw [counted]
    exact ⟨_, if_pos recordable⟩

end

/-! ## One message -/

/-- What the collector reads of an entry: a tool message whose tool is known. -/
def readingOf (conversation : List Entry) (entry : Entry) : Option Reading :=
  match entry.message with
  | .tool toolCallId content =>
      let toolName := extractToolName conversation toolCallId
      if toolName = "" then none else some ⟨entry.number, toolName, written content⟩
  | _ => none

theorem readings_eq (conversation : List Entry) :
    readings conversation = conversation.filterMap (readingOf conversation) := rfl

/-- One entry in the loop of the collector. -/
def countEntry (hashableSlices : Bool) (conversation : List Entry)
    (stats : OrderedDict String ToolStats) (entry : Entry) :
    Option (OrderedDict String ToolStats) :=
  match readingOf conversation entry with
  | none => some stats
  | some reading => countReading hashableSlices stats reading

/-- A tool message, with what stands around it in the conversations of the sub-agents. -/
structure ToolMessage where
  earlier : List (List Entry)
  before : List Entry
  number : Nat
  toolCallId : String
  content : ToolContent
  after : List Entry
  later : List (List Entry)

namespace ToolMessage

def entry (m : ToolMessage) : Entry := ⟨m.number, .tool m.toolCallId m.content⟩

def conversation (m : ToolMessage) : List Entry := m.before ++ m.entry :: m.after

def conversations (m : ToolMessage) : List (List Entry) := m.earlier ++ m.conversation :: m.later

/-- What the collector has read before it. -/
def earlierReadings (m : ToolMessage) : List Reading :=
  m.earlier.flatMap readings ++ m.before.filterMap (readingOf m.conversation)

/-- The message adds one failure, or one success, to the tool, as the extractor judges it, and
nothing to the others. -/
def CountedOnce (hashableSlices : Bool) (m : ToolMessage) (toolName : String) : Prop :=
  ∃ stats after isFailed,
    toolStats hashableSlices [] m.earlierReadings = some stats ∧
      countEntry hashableSlices m.conversation stats m.entry = some after ∧
      judgement m.conversation toolName m.entry = some isFailed ∧
      (∀ other, other ≠ toolName → after.lookup other = stats.lookup other) ∧
      ((after.lookup toolName).getD {}).failure =
        ((stats.lookup toolName).getD {}).failure + (if isFailed then 1 else 0) ∧
      ((after.lookup toolName).getD {}).success =
        ((stats.lookup toolName).getD {}).success + (if isFailed then 0 else 1)

/-- The id and the tool have names, no later request uses the id for another tool, and if the text
mentions an error, then in a JSON object, as a text or after three such errors. -/
structure Unambiguous (m : ToolMessage) (toolName : String) : Prop where
  hasId : m.toolCallId ≠ ""
  named : toolName ≠ ""
  last : requested m.conversation.reverse m.toolCallId = some toolName
  alike : MentionsError (written m.content) → ∃ error, errorOf (written m.content) = some error ∧
    (isText error = true ∨ 3 ≤ notedErrors toolName m.earlierReadings)

end ToolMessage

/-- The collection ends, and each message that a request before it asks for is counted once, for
the tool of the last such request, as the extractor judges it. -/
structure JudgesAlike (hashableSlices : Bool) (conversations : List (List Entry)) : Prop where
  collects : ∃ experiences,
    collectToolExperiences hashableSlices conversations = some experiences
  counted : ∀ m : ToolMessage, m.conversations = conversations → ∀ toolName,
    requested m.before.reverse m.toolCallId = some toolName → m.CountedOnce hashableSlices toolName

section

variable {hashableSlices : Bool} {stats : OrderedDict String ToolStats} {toolName : String}

namespace ToolMessage

variable {m : ToolMessage}

theorem filterMap_around {α β : Type*} (f : α → Option β) (before : List α) (middle : α)
    (after : List α) :
    (before ++ middle :: after).filterMap f =
      before.filterMap f ++ ((f middle).toList ++ after.filterMap f) := by
  rw [List.filterMap_append, List.filterMap_cons]
  cases f middle <;> rfl

theorem readings_conversations (m : ToolMessage) :
    m.conversations.flatMap readings =
      m.earlierReadings ++ ((readingOf m.conversation m.entry).toList ++
        (m.after.filterMap (readingOf m.conversation) ++ m.later.flatMap readings)) := by
  have here : readings m.conversation = m.before.filterMap (readingOf m.conversation) ++
      ((readingOf m.conversation m.entry).toList ++
        m.after.filterMap (readingOf m.conversation)) :=
    (readings_eq m.conversation).trans (filterMap_around _ m.before m.entry m.after)
  rw [conversations, earlierReadings, List.flatMap_append, List.flatMap_cons, here]
  simp only [List.append_assoc]

theorem readingOf_entry (m : ToolMessage)
    (last : requested m.conversation.reverse m.toolCallId = some toolName) :
    readingOf m.conversation m.entry =
      if toolName = "" then none else some ⟨m.number, toolName, written m.content⟩ := by
  have isName : extractToolName m.conversation m.toolCallId = toolName := by
    change (requested m.conversation.reverse m.toolCallId).getD "" = toolName
    rw [last]
    rfl
  unfold readingOf entry
  dsimp only
  rw [isName]

/-- The judgement of the extractor on a message of the tool. -/
theorem judgement_eq_some_iff {isFailed : Bool} :
    judgement m.conversation toolName m.entry = some isFailed ↔
      m.toolCallId ≠ "" ∧ requested m.conversation.reverse m.toolCallId = some toolName ∧
        isError (written m.content) = isFailed := by
  have isMatch : matchToolCall m.conversation m.toolCallId toolName = true ↔
      m.toolCallId ≠ "" ∧ requested m.conversation.reverse m.toolCallId = some toolName := by
    simp [matchToolCall]
  unfold judgement entry
  dsimp only
  split
  · rename_i isMatched
    obtain ⟨hasId, last⟩ := isMatch.mp isMatched
    exact ⟨fun judged => ⟨hasId, last, Option.some.inj judged⟩,
      fun ⟨_, _, same⟩ => congrArg some same⟩
  · rename_i notMatched
    exact iff_of_false nofun fun ⟨hasId, last, _⟩ => notMatched (isMatch.mpr ⟨hasId, last⟩)

end ToolMessage

/-- A text counts once, as the extractor judges it, exactly if both take it for an error, which can
be noted or is not noted, or neither does. -/
theorem count_alike_iff (hashableSlices : Bool) {stats : ToolStats} {errors : Nat}
    {content : List Char} (notes : stats.Notes errors) :
    stats.CountsAs hashableSlices (isError content) content ↔
      (MentionsError content → ∃ error, errorOf content = some error ∧
        (isText error = true ∨ 3 ≤ errors)) := by
  have full : 3 ≤ stats.failures.length ↔ 3 ≤ errors := by
    rw [notes.noted]
    omega
  rw [isError_eq]
  cases found : errorOf content with
  | none =>
      rw [Option.isSome_none, ToolStats.countsAs_success_iff notes.recordable,
        ← Bool.not_eq_true, isFailure_iff]
      exact ⟨fun silent mentions => absurd mentions silent,
        fun some mentions => by obtain ⟨_, impossible, _⟩ := some mentions; cases impossible⟩
  | some error =>
      rw [Option.isSome_some, ToolStats.countsAs_failure_iff notes.recordable,
        isErrorObject_iff, found, full]
      exact ⟨fun shape _ => shape, fun shape => shape (mentionsError_of_errorOf found)⟩

theorem run_append (given rest : List Reading) :
    run (fun given reading => given ++ [reading]) given rest = given ++ rest := by
  induction rest generalizing given with
  | nil => exact (List.append_nil given).symm
  | cons reading rest ih => rw [run_cons, ih, List.append_assoc, List.singleton_append]

theorem allSettle_append {given first second : List Reading} :
    AllSettle hashableSlices given (first ++ second) ↔
      AllSettle hashableSlices given first ∧
        AllSettle hashableSlices (given ++ first) second := by
  rw [AllSettle, stepsMeet_append, run_append]
  exact Iff.rfl

/-- In a collection that ends, a message is counted once and judged alike exactly if it is
unambiguous. -/
theorem countedOnce_iff {m : ToolMessage}
    (settle : AllSettle hashableSlices [] (m.conversations.flatMap readings)) :
    m.CountedOnce hashableSlices toolName ↔ m.Unambiguous toolName := by
  rw [m.readings_conversations, allSettle_append, List.nil_append, allSettle_append] at settle
  obtain ⟨settleBefore, settleHere, -⟩ := settle
  obtain ⟨stats, counted, notes⟩ := toolStats_notes noteAll_nil settleBefore
  rw [List.nil_append] at notes
  -- with the tool known, the message is one step of the count
  have step (named : toolName ≠ "")
      (last : requested m.conversation.reverse m.toolCallId = some toolName) :
      ∃ after, countEntry hashableSlices m.conversation stats m.entry = some after ∧
        (∀ other, other ≠ toolName → after.lookup other = stats.lookup other) ∧
        ((stats.lookup toolName).getD {}).count hashableSlices (written m.content) =
          some ((after.lookup toolName).getD {}) ∧
        ((after.lookup toolName).getD {}).Recordable := by
    have isReading := (m.readingOf_entry last).trans (if_neg named)
    rw [isReading] at settleHere
    obtain ⟨after, stepped, notesAfter⟩ := countReading_notes notes settleHere.1
    refine ⟨after, ?_, fun other ne => ?_, (countReading_lookup toolName stepped).1 rfl,
      (notesAfter toolName).recordable⟩
    · rw [countEntry, isReading]
      exact stepped
    · exact (countReading_lookup other stepped).2 (Ne.symm ne)
  constructor
  · rintro ⟨stats', after, isFailed, isStats, stepped, judged, -, failure, success⟩
    cases isStats.symm.trans counted
    obtain ⟨hasId, last, rfl⟩ := ToolMessage.judgement_eq_some_iff.mp judged
    have named : toolName ≠ "" := by
      rintro rfl
      rw [countEntry, m.readingOf_entry last, if_pos rfl] at stepped
      cases stepped
      cases isFailed : isError (written m.content) <;> simp [isFailed] at failure success
    obtain ⟨after', stepped', -, done, recordable⟩ := step named last
    cases stepped'.symm.trans stepped
    exact ⟨hasId, named, last,
      (count_alike_iff hashableSlices (notes toolName)).mp ⟨_, done, recordable, failure, success⟩⟩
  · rintro ⟨hasId, named, last, alike⟩
    obtain ⟨after, stepped, others, done, -⟩ := step named last
    obtain ⟨after', done', -, failure, success⟩ :=
      (count_alike_iff hashableSlices (notes toolName)).mpr alike
    cases done'.symm.trans done
    exact ⟨stats, after, _, counted, stepped,
      ToolMessage.judgement_eq_some_iff.mpr ⟨hasId, last, rfl⟩, others, failure, success⟩

end

end YouMi.Coordinator
