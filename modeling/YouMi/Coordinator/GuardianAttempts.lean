import YouMi.Coordinator.ToolGuardian

/-!
# What an attempt of the guardian needs

An attempt ends without an exception exactly if the description and the fields of the fix
are of the kinds that the steps on its way take, and nothing that is awaited is cancelled.
-/

namespace YouMi.Coordinator

open YouMi.Core YouMi.Library YouMi.Memory YouMi.Python

/-! ## Steps that raise -/

theorem bind_eq_ok_iff {α β : Type} {first : Except Fault α} {next : α → Except Fault β} {b : β} :
    (first >>= next) = .ok b ↔ ∃ a, first = .ok a ∧ next a = .ok b := by
  cases first with
  | error fault => exact ⟨nofun, nofun⟩
  | ok a => exact ⟨fun done => ⟨a, rfl, done⟩, fun ⟨_, same, done⟩ => by cases same; exact done⟩

theorem seq_eq_ok_iff {β : Type} {first : Except Fault Unit} {next : Unit → Except Fault β}
    {b : β} : (first >>= next) = .ok b ↔ first = .ok () ∧ next () = .ok b :=
  bind_eq_ok_iff.trans ⟨fun ⟨⟨⟩, done, later⟩ => ⟨done, later⟩, fun done => ⟨(), done⟩⟩

/-- What is awaited ends, or raises what a `try` catches. -/
def Uncancelled {α : Type} (result : Except Fault α) : Prop :=
  ∀ fault, result = .error fault → fault.isException = true

theorem caught_eq_ok_iff {α : Type} {result : Except Fault α} {value : Option α} :
    caught result = .ok value ↔ Uncancelled result ∧ value = result.toOption := by
  cases result with
  | ok found =>
      have fine : Uncancelled (.ok found : Except Fault α) := nofun
      exact ⟨fun same => ⟨fine, (Except.ok.inj same).symm⟩, fun ⟨_, same⟩ => by rw [same]; rfl⟩
  | error fault =>
      unfold caught
      dsimp only
      split
      · rename_i isException
        have fine : Uncancelled (.error fault : Except Fault α) := by
          intro raised same
          cases same
          exact isException
        exact ⟨fun same => ⟨fine, (Except.ok.inj same).symm⟩, fun ⟨_, same⟩ => by rw [same]; rfl⟩
      · rename_i passes
        exact ⟨nofun, fun ⟨fine, _⟩ => absurd (fine fault rfl) passes⟩

theorem caught_map_eq_ok_iff {α β : Type} {result : Except Fault α} {f : Option α → β} {value : β} :
    (caught result).map f = .ok value ↔ Uncancelled result ∧ value = f result.toOption := by
  cases same : caught result with
  | ok found =>
      obtain ⟨fine, rfl⟩ := caught_eq_ok_iff.mp same
      exact ⟨fun done => ⟨fine, (Except.ok.inj done).symm⟩, fun ⟨_, done⟩ => by rw [done]; rfl⟩
  | error fault =>
      refine ⟨nofun, fun ⟨fine, _⟩ => ?_⟩
      rw [caught_eq_ok_iff.mpr ⟨fine, rfl⟩] at same
      cases same

/-- A text or a list. -/
def IsSequence : PyVal → Prop
  | .str _ | .list _ => True
  | _ => False

theorem sliced_eq_ok_iff {value : PyVal} : sliced value = .ok () ↔ IsSequence value := by
  cases value <;> simp [sliced, IsSequence]

/-- Updates that can be asked for the name, and that name it only if they are a dictionary. -/
def TakesName (updates : PyVal) (name : String) : Prop :=
  match updates with
  | .dict _ => True
  | .list items => ∀ item ∈ items, PyVal.pyEq (.str name) item = false
  | .str text => contains text.toList name.toList = false
  | _ => False

theorem assignText_ok_iff {updates : PyVal} {name : String} (text : PyVal) :
    (∃ assigned, assignText updates name text = .ok assigned) ↔ TakesName updates name := by
  have unnamed (named : Bool) : (∃ assigned, (if named = true then
      Except.error typeError else Except.ok text : Except Fault PyVal) = .ok assigned) ↔
        named = false := by
    cases named with
    | true => exact ⟨nofun, nofun⟩
    | false => exact ⟨fun _ => rfl, fun _ => ⟨text, rfl⟩⟩
  cases updates with
  | dict entries =>
      refine ⟨fun _ => trivial, fun _ => ?_⟩
      cases found : entries.lookup name with
      | none => exact ⟨text, bind_eq_ok_iff.mpr ⟨false, by simp [isIn, found], rfl⟩⟩
      | some assigned =>
          exact ⟨assigned, bind_eq_ok_iff.mpr
            ⟨true, by simp [isIn, found], by simp [subscript, found]⟩⟩
  | list items =>
      refine (unnamed (items.any fun item => PyVal.pyEq (.str name) item)).trans ?_
      simp [TakesName]
  | str whole => exact unnamed (contains whole.toList name.toList)
  | null => exact ⟨nofun, nofun⟩
  | bool value => exact ⟨nofun, nofun⟩
  | int value => exact ⟨nofun, nofun⟩
  | float value => exact ⟨nofun, nofun⟩
  | sentinel => exact ⟨nofun, nofun⟩

theorem assignTexts_ok_iff {updates : PyVal} {parameters : List (String × PyVal)} :
    (∃ assigned, assignTexts updates parameters = .ok assigned) ↔
      ∀ parameter ∈ parameters, TakesName updates parameter.1 := by
  induction parameters with
  | nil => exact ⟨fun _ => nofun, fun _ => ⟨[], rfl⟩⟩
  | cons parameter rest ih =>
      obtain ⟨name, text⟩ := parameter
      rw [List.forall_mem_cons, ← ih, ← assignText_ok_iff text]
      constructor
      · rintro ⟨assigned, done⟩
        obtain ⟨first, here, later⟩ := bind_eq_ok_iff.mp done
        obtain ⟨others, there, -⟩ := bind_eq_ok_iff.mp later
        exact ⟨⟨first, here⟩, ⟨others, there⟩⟩
      · rintro ⟨⟨first, here⟩, ⟨others, there⟩⟩
        exact ⟨(name, first) :: others,
          bind_eq_ok_iff.mpr ⟨first, here, bind_eq_ok_iff.mpr ⟨others, there, rfl⟩⟩⟩

theorem ToolTexts.update_ok_iff {texts : ToolTexts} {description updates : PyVal} :
    (∃ updated, texts.update description updates = .ok updated) ↔
      (truthy updates = true →
        ∀ parameter ∈ texts.parameters, TakesName updates parameter.1) := by
  rw [← assignTexts_ok_iff]
  constructor
  · rintro ⟨updated, done⟩ some
    obtain ⟨parameters, assigned, -⟩ := bind_eq_ok_iff.mp done
    rw [if_pos some] at assigned
    exact ⟨parameters, assigned⟩
  · intro assigned
    by_cases some : truthy updates = true
    · obtain ⟨parameters, done⟩ := assigned some
      exact ⟨_, bind_eq_ok_iff.mpr ⟨parameters, (if_pos some).trans done, rfl⟩⟩
    · exact ⟨_, bind_eq_ok_iff.mpr ⟨texts.parameters, if_neg some, rfl⟩⟩

/-! ## What is offered -/

theorem dumpArguments_eq_ok_iff {reports : List ToolIssueReport} :
    dumpArguments reports = .ok () ↔
      ∀ report ∈ reports, ∃ text, report.callArguments = .ok text := by
  induction reports with
  | nil => exact ⟨fun _ => nofun, fun _ => rfl⟩
  | cons report rest ih =>
      rw [List.forall_mem_cons, ← ih]
      constructor
      · intro done
        obtain ⟨text, here, later⟩ := bind_eq_ok_iff.mp done
        exact ⟨⟨text, here⟩, later⟩
      · rintro ⟨⟨text, here⟩, later⟩
        exact bind_eq_ok_iff.mpr ⟨text, here, later⟩

namespace AttemptUse

variable {use : AttemptUse} {toolName : String} {texts : ToolTexts}
  {reports : List ToolIssueReport} {fix : Fix} {updated : Bool}

/-- What the global memory knows of the tool, if it answers. -/
def known (use : AttemptUse) : Option ToolKnowledge :=
  use.memory.bind fun memory => memory.knowledge.toOption

/-- The fix of the rules. -/
def rules (use : AttemptUse) (toolName : String) (texts : ToolTexts)
    (reports : List ToolIssueReport) : Except Fault Fix :=
  generateFixWithRules use.distinctErrors toolName texts reports
    (primaryType use.distinctTypes (reports.map ToolIssueReport.issueType)) use.known

/-- The fix is that of the object which the LLM replies; or there is no such object, and it is
that of the rules. -/
inductive Offers (use : AttemptUse) (toolName : String) (texts : ToolTexts)
    (reports : List ToolIssueReport) : Fix → Prop
  | reply {entries : Dict} (asked : use.llm = some (.ok (some (.dict entries))))
      (dumped : ∀ report ∈ reports, ∃ text, report.callArguments = .ok text) :
      Offers use toolName texts reports (.ofReply texts entries)
  | rules {fix : Fix}
      (noObject : ∀ reply, use.llm = some reply → Uncancelled reply ∧
        (∀ report ∈ reports, ∃ text, report.callArguments = .ok text) ∧
        ∀ entries, reply ≠ .ok (some (.dict entries)))
      (ruled : use.rules toolName texts reports = .ok fix) :
      Offers use toolName texts reports fix

theorem boundaryLines_of_dumped
    (dumped : ∀ report ∈ reports, ∃ text, report.callArguments = .ok text) :
    ∃ lines, boundaryLines reports = .ok lines := by
  induction reports with
  | nil => exact ⟨[], rfl⟩
  | cons report rest ih =>
      obtain ⟨⟨text, here⟩, later⟩ := List.forall_mem_cons.mp dumped
      obtain ⟨lines, others⟩ := ih later
      exact ⟨_, bind_eq_ok_iff.mpr ⟨text, here, bind_eq_ok_iff.mpr ⟨lines, others, rfl⟩⟩⟩

theorem freshParts_of_text (text : String) (parts : List String) :
    ∃ fresh, freshParts (.str text) parts = .ok fresh := by
  induction parts with
  | nil => exact ⟨[], rfl⟩
  | cons part rest ih =>
      obtain ⟨fresh, others⟩ := ih
      have stale : ∃ stale, (if Mcp.strip part = "" then .ok true
          else isIn (Mcp.strip part) (.str text)) = .ok stale := by
        split
        · exact ⟨true, rfl⟩
        · exact ⟨_, rfl⟩
      obtain ⟨stale, decided⟩ := stale
      exact ⟨_, bind_eq_ok_iff.mpr ⟨stale, decided, bind_eq_ok_iff.mpr ⟨fresh, others, rfl⟩⟩⟩

/-- The rules offer a fix for every tool whose description is a text. -/
theorem rules_of_text {text : String} (isText : texts.description = .str text)
    (dumped : ∀ report ∈ reports, ∃ text, report.callArguments = .ok text) :
    ∃ fix, use.rules toolName texts reports = .ok fix := by
  have parts : ∃ parts, issueParts use.distinctErrors reports
      (primaryType use.distinctTypes (reports.map ToolIssueReport.issueType)) = .ok parts := by
    obtain ⟨lines, lined⟩ := boundaryLines_of_dumped fun report member =>
      dumped report (List.mem_of_mem_take (i := 3) member)
    unfold issueParts
    dsimp only
    split
    case h_2 => exact ⟨_, bind_eq_ok_iff.mpr ⟨lines, lined, rfl⟩⟩
    all_goals exact ⟨_, rfl⟩
  obtain ⟨parts, added⟩ := parts
  obtain ⟨fresh, selected⟩ := freshParts_of_text text (withKnowledge use.known parts)
  have appended : ∃ description, appendParts (.str text) fresh = .ok description := by
    unfold appendParts
    split
    · exact ⟨_, rfl⟩
    · exact ⟨_, rfl⟩
  obtain ⟨description, appended⟩ := appended
  rw [← isText] at selected appended
  exact ⟨_, bind_eq_ok_iff.mpr ⟨parts, added, bind_eq_ok_iff.mpr ⟨fresh, selected,
    bind_eq_ok_iff.mpr ⟨description, appended, rfl⟩⟩⟩⟩

theorem offer_eq_ok_iff : use.offer toolName texts reports use.known = .ok fix ↔
    use.Offers toolName texts reports fix := by
  unfold offer generateFix
  cases asked : use.llm with
  | none =>
      constructor
      · exact .rules (by rw [asked]; nofun)
      · rintro (⟨replied, -⟩ | ⟨-, ruled⟩)
        · rw [asked] at replied
          cases replied
        · exact ruled
  | some reply =>
      constructor
      · intro offered
        obtain ⟨⟨⟩, dumps, replied⟩ := bind_eq_ok_iff.mp offered
        obtain ⟨found, caughtReply, chosen⟩ := bind_eq_ok_iff.mp replied
        obtain ⟨fine, rfl⟩ := caught_eq_ok_iff.mp caughtReply
        have dumped := dumpArguments_eq_ok_iff.mp dumps
        split at chosen
        · rename_i entries same
          cases chosen
          cases reply with
          | error fault => cases same
          | ok value =>
              cases same
              exact .reply asked dumped
        · rename_i noObject
          refine .rules (fun other same => ?_) chosen
          rw [asked] at same
          cases same
          refine ⟨fine, dumped, fun entries isObject => noObject entries ?_⟩
          rw [isObject]
          rfl
      · rintro (⟨replied, dumped⟩ | ⟨noObject, ruled⟩)
        · rw [asked] at replied
          cases replied
          exact bind_eq_ok_iff.mpr ⟨(), dumpArguments_eq_ok_iff.mpr dumped, rfl⟩
        · obtain ⟨fine, dumped, notObject⟩ := noObject reply asked
          refine bind_eq_ok_iff.mpr ⟨(), dumpArguments_eq_ok_iff.mpr dumped,
            bind_eq_ok_iff.mpr ⟨_, caught_eq_ok_iff.mpr ⟨fine, rfl⟩, ?_⟩⟩
          split
          · rename_i entries same
            refine absurd ?_ (notObject entries)
            cases reply with
            | error fault => cases same
            | ok value =>
                cases same
                rfl
          · exact ruled

/-! ## What the steps take -/

/-- What is read before a fix is looked for. -/
structure Ready (use : AttemptUse) (texts : ToolTexts) : Prop where
  knowledge : ∀ memory ∈ use.memory, Uncancelled memory.knowledge
  description : IsSequence texts.description
  versionChain : ∀ store ∈ use.toolStore, Uncancelled store.versionChain
  gitHistory : use.gitHistory = .ok ()

/-- The update raises nothing. -/
def Takes (use : AttemptUse) (fix : Fix) : Prop :=
  match use.updater with
  | .localFunction texts => truthy fix.paramUpdates = true →
      ∀ parameter ∈ texts.parameters, TakesName fix.paramUpdates parameter.1
  | .other answer => ∃ success, answer = .ok success

/-- The update is made. -/
def accepts (use : AttemptUse) : Bool :=
  match use.updater with
  | .localFunction _ => true
  | .other (.ok success) => success
  | .other (.error _) => false

/-- The description of the tool is updated. -/
def updates (use : AttemptUse) (texts : ToolTexts) (fix : Fix) : Bool :=
  fix.redescribes texts && use.accepts

/-- The fix can be written into a global memory. -/
structure Persistable (texts : ToolTexts) (fix : Fix) (memory : MemoryUse) : Prop where
  description : fix.redescribes texts = true → IsSequence fix.newDescription
  suggestion : truthy fix.codeSuggestion = true → IsSequence fix.codeSuggestion
  persist : Uncancelled memory.persist

theorem loadToolKnowledge_eq_ok_iff {knowledge : Option ToolKnowledge} :
    use.loadToolKnowledge = .ok knowledge ↔
      (∀ memory ∈ use.memory, Uncancelled memory.knowledge) ∧ knowledge = use.known := by
  unfold loadToolKnowledge known
  cases use.memory with
  | none => exact ⟨fun same => ⟨nofun, (Except.ok.inj same).symm⟩, fun same => by rw [same.2]; rfl⟩
  | some memory =>
      refine caught_eq_ok_iff.trans (and_congr_left fun _ => ?_)
      simp

theorem versionHistory_eq_ok_iff : use.versionHistory = .ok () ↔
    ∀ store ∈ use.toolStore, Uncancelled store.versionChain := by
  unfold versionHistory
  cases use.toolStore with
  | none => exact ⟨fun _ => nofun, fun _ => rfl⟩
  | some store =>
      refine caught_map_eq_ok_iff.trans ?_
      simp

theorem collectEvidence_eq_ok_iff : use.collectEvidence texts = .ok () ↔
    IsSequence texts.description ∧
      (∀ store ∈ use.toolStore, Uncancelled store.versionChain) ∧ use.gitHistory = .ok () := by
  unfold collectEvidence
  rw [seq_eq_ok_iff, seq_eq_ok_iff, sliced_eq_ok_iff, versionHistory_eq_ok_iff]

theorem apply_eq_ok_iff : use.apply texts fix = .ok updated ↔
    (fix.redescribes texts = true → use.Takes fix) ∧ updated = use.updates texts fix := by
  unfold apply updates
  cases redescribes : fix.redescribes texts with
  | false => simp [eq_comm]
  | true =>
      rw [if_pos rfl]
      unfold Updater.updateToolDescription Takes accepts
      cases use.updater with
      | other answer =>
          cases answer with
          | error fault => simp
          | ok success => simp [eq_comm]
      | localFunction known =>
          have same (made : Except Fault ToolTexts) :
              made.map (fun _ => true) = .ok updated ↔
                (∃ assigned, made = .ok assigned) ∧ updated = true := by
            cases made with
            | error fault => exact ⟨nofun, fun done => nomatch done.1⟩
            | ok assigned =>
                exact ⟨fun done => ⟨⟨assigned, rfl⟩, (Except.ok.inj done).symm⟩,
                  fun done => congrArg Except.ok done.2.symm⟩
          refine (same _).trans (and_congr_left fun _ => ?_)
          rw [ToolTexts.update_ok_iff]
          exact ⟨fun takes _ => takes, fun takes => takes rfl⟩

theorem summarize_eq_ok_iff : fix.summarize texts = .ok () ↔
    (fix.redescribes texts = true → IsSequence fix.newDescription) ∧
      (truthy fix.codeSuggestion = true → IsSequence fix.codeSuggestion) := by
  have step {condition : Bool} {value : PyVal} :
      (if condition = true then sliced value else .ok ()) = .ok () ↔
        (condition = true → IsSequence value) := by
    cases condition with
    | true => simpa using sliced_eq_ok_iff
    | false => simp
  unfold Fix.summarize
  rw [seq_eq_ok_iff, step, step]

theorem remember_eq_ok_iff : use.remember texts fix updated = .ok () ↔
    ((updated || truthy fix.codeSuggestion) = true →
      ∀ memory ∈ use.memory, Persistable texts fix memory) := by
  unfold remember
  split
  · rename_i remembered
    refine Iff.trans ?_ (forall_prop_of_true remembered).symm
    unfold persistFixToMemory
    cases use.memory with
    | none => exact ⟨fun _ => nofun, fun _ => rfl⟩
    | some memory =>
        dsimp only
        rw [seq_eq_ok_iff, summarize_eq_ok_iff, caught_map_eq_ok_iff]
        constructor
        · rintro ⟨⟨description, suggestion⟩, persist, -⟩ memory' same
          cases same
          exact ⟨description, suggestion, persist⟩
        · intro persistable
          obtain ⟨description, suggestion, persist⟩ := persistable memory rfl
          exact ⟨⟨description, suggestion⟩, persist, rfl⟩
  · rename_i forgotten
    exact ⟨fun _ remembered => absurd remembered forgotten, fun _ => rfl⟩

/-- An attempt ends if what is read is there, a fix is offered, the update takes it and it can be
remembered. -/
theorem attempt_eq_ok_iff : use.attempt toolName texts reports = .ok (fix, updated) ↔
    use.Ready texts ∧ use.Offers toolName texts reports fix ∧
      ((fix.redescribes texts = true → use.Takes fix) ∧ updated = use.updates texts fix) ∧
      ((updated || truthy fix.codeSuggestion) = true →
        ∀ memory ∈ use.memory, Persistable texts fix memory) := by
  rw [← apply_eq_ok_iff, ← remember_eq_ok_iff, ← offer_eq_ok_iff]
  constructor
  · intro done
    obtain ⟨knowledge, loaded, done⟩ := bind_eq_ok_iff.mp done
    obtain ⟨knows, rfl⟩ := loadToolKnowledge_eq_ok_iff.mp loaded
    obtain ⟨collected, done⟩ := seq_eq_ok_iff.mp done
    obtain ⟨description, versionChain, gitHistory⟩ := collectEvidence_eq_ok_iff.mp collected
    obtain ⟨offered, offers, done⟩ := bind_eq_ok_iff.mp done
    obtain ⟨made, applied, done⟩ := bind_eq_ok_iff.mp done
    obtain ⟨remembered, same⟩ := seq_eq_ok_iff.mp done
    cases same
    exact ⟨⟨knows, description, versionChain, gitHistory⟩, offers, applied, remembered⟩
  · rintro ⟨ready, offers, applied, remembered⟩
    refine bind_eq_ok_iff.mpr
      ⟨use.known, loadToolKnowledge_eq_ok_iff.mpr ⟨ready.knowledge, rfl⟩, seq_eq_ok_iff.mpr
        ⟨collectEvidence_eq_ok_iff.mpr ⟨ready.description, ready.versionChain, ready.gitHistory⟩,
          bind_eq_ok_iff.mpr ⟨fix, offers, bind_eq_ok_iff.mpr ⟨updated, applied, ?_⟩⟩⟩⟩
    exact seq_eq_ok_iff.mpr ⟨remembered, rfl⟩

/-! ## What becomes of a fix -/

/-- The id under which the store has committed the fix. -/
def committed (use : AttemptUse) : Option String :=
  match use.toolStore with
  | none => none
  | some store =>
      let toolId := store.commit.toOption.getD none
      if isId toolId then toolId else none

theorem commitFixVersion_eq_ok_iff {toolId : Option String} :
    use.commitFixVersion = .ok toolId ↔
      (∀ store ∈ use.toolStore, Uncancelled store.commit) ∧ toolId = use.committed := by
  unfold commitFixVersion committed
  cases use.toolStore with
  | none => exact ⟨fun same => ⟨nofun, (Except.ok.inj same).symm⟩, fun same => by rw [same.2]⟩
  | some store =>
      refine caught_map_eq_ok_iff.trans (and_congr_left fun _ => ?_)
      simp

/-- No step raises for the fix. -/
structure Bears (use : AttemptUse) (texts : ToolTexts) (fix : Fix) : Prop where
  takes : fix.redescribes texts = true → use.Takes fix
  persists : (use.updates texts fix || truthy fix.codeSuggestion) = true →
    ∀ memory ∈ use.memory, Persistable texts fix memory
  commits : fix.changed texts = true → ∀ store ∈ use.toolStore, Uncancelled store.commit

/-- A fix that counts as a change is one: of the description, by a suggestion or in the store. -/
def Effective (use : AttemptUse) (texts : ToolTexts) (fix : Fix) : Prop :=
  fix.changed texts = true → use.updates texts fix = true ∨
    truthy fix.codeSuggestion = true ∨ use.committed.isSome = true

/-- The reports of a tool that is known are worked on without an exception and to some effect. -/
def Meets (use : AttemptUse) (toolName : String) (reports : List ToolIssueReport) : Prop :=
  ∀ texts, use.definition = some texts → use.Ready texts ∧
    ∃ fix, use.Offers toolName texts reports fix ∧ use.Bears texts fix ∧ use.Effective texts fix

theorem Bears.attempt_eq_ok (bears : use.Bears texts fix) (ready : use.Ready texts)
    (offers : use.Offers toolName texts reports fix) :
    use.attempt toolName texts reports = .ok (fix, use.updates texts fix) :=
  attempt_eq_ok_iff.mpr ⟨ready, offers, ⟨bears.takes, rfl⟩, bears.persists⟩

end AttemptUse

end YouMi.Coordinator
