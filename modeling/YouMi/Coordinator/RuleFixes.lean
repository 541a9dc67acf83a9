import YouMi.Coordinator.GuardianAttempts

/-!
# Fixes by rules, applied again

The parts that the rules add depend on the reports and the knowledge, not on the
description.  Once a fix has been applied the description has every part, so the same
reports add none of them a second time.
-/

namespace YouMi.Coordinator

open YouMi.Core YouMi.Mcp YouMi.Python

/-! ## Texts within texts -/

theorem trim_infix (p : Char → Bool) (text : List Char) : trim p text <:+: text := by
  have front := List.dropWhile_suffix (l := text) p
  have back := List.dropWhile_suffix (l := (text.dropWhile p).reverse) p
  have kept : trim p text <+: text.dropWhile p := by
    simpa [trim] using List.reverse_prefix.mpr back
  exact kept.isInfix.trans front.isInfix

theorem strip_within (part : String) : (Mcp.strip part).toList <:+: part.toList := by
  unfold Mcp.strip
  rw [String.toList_ofList]
  exact trim_infix isSpace part.toList

/-- Each of the joined texts stands in what they are joined to. -/
theorem infix_intercalate {separator part : String} {parts : List String} (member : part ∈ parts) :
    part.toList <:+: (separator.intercalate parts).toList := by
  rw [String.toList_intercalate, List.intercalate]
  apply List.infix_of_mem_flatten
  obtain ⟨index, found⟩ := List.mem_iff_getElem?.mp member
  refine List.mem_of_getElem? (i := 2 * index) ?_
  rw [List.getElem?_intersperse_two_mul, List.getElem?_map, found]
  rfl

/-! ## The parts of a description -/

/-- Nothing of the part is left to add. -/
def Stale (text part : String) : Prop :=
  Mcp.strip part = "" ∨ (Mcp.strip part).toList <:+: text.toList

instance (text part : String) : Decidable (Stale text part) :=
  inferInstanceAs (Decidable (_ ∨ _))

section Parts

variable {text : String} {part : String} {parts fresh : List String}

theorem Stale.append (stale : Stale text part) (suffix : String) :
    Stale (text ++ suffix) part := by
  refine stale.imp_right fun stands => stands.trans ?_
  rw [String.toList_append]
  exact (List.prefix_append _ _).isInfix

/-- What `_generate_fix_with_rules` asks of a part. -/
theorem isIn_strip (text part : String) :
    (if Mcp.strip part = "" then .ok true else isIn (Mcp.strip part) (.str text)) =
      (.ok (decide (Stale text part)) : Except Fault Bool) := by
  split
  · rename_i blank
    rw [decide_eq_true (.inl blank)]
  · rename_i solid
    unfold Stale
    simp only [isIn, contains, solid, false_or]

theorem freshParts_cons : freshParts (.str text) (part :: parts) = .ok fresh ↔
    ∃ later, freshParts (.str text) parts = .ok later ∧
      fresh = if Stale text part then later else part :: later := by
  rw [freshParts, isIn_strip, bind_eq_ok_iff]
  constructor
  · rintro ⟨stale, isStale, rest⟩
    obtain ⟨later, others, done⟩ := bind_eq_ok_iff.mp rest
    rw [← Except.ok.inj isStale] at done
    simp only [decide_eq_true_eq] at done
    exact ⟨later, others, (Except.ok.inj done).symm⟩
  · rintro ⟨later, others, rfl⟩
    refine ⟨_, rfl, bind_eq_ok_iff.mpr ⟨later, others, ?_⟩⟩
    simp only [decide_eq_true_eq]

/-- A part is fresh unless the description has it. -/
theorem stale_or_mem_of_freshParts (selected : freshParts (.str text) parts = .ok fresh) :
    ∀ part ∈ parts, Stale text part ∨ part ∈ fresh := by
  induction parts generalizing fresh with
  | nil => exact nofun
  | cons first rest ih =>
      obtain ⟨later, others, rfl⟩ := freshParts_cons.mp selected
      intro part member
      by_cases stale : Stale text first
      · rw [if_pos stale]
        rcases List.mem_cons.mp member with rfl | member
        · exact .inl stale
        · exact ih others part member
      · rw [if_neg stale]
        rcases List.mem_cons.mp member with rfl | member
        · exact .inr List.mem_cons_self
        · exact (ih others part member).imp_right (List.mem_cons_of_mem _)

theorem freshParts_eq_nil (stale : ∀ part ∈ parts, Stale text part) :
    freshParts (.str text) parts = .ok [] := by
  induction parts with
  | nil => rfl
  | cons first rest ih =>
      have others := ih fun part member => stale part (List.mem_cons_of_mem _ member)
      exact freshParts_cons.mpr ⟨[], others, (if_pos (stale first List.mem_cons_self)).symm⟩

end Parts

/-- A description has every part once its fresh parts have been appended. -/
theorem freshParts_of_appended {description newDescription : PyVal} {parts fresh : List String}
    (selected : freshParts description parts = .ok fresh)
    (appended : appendParts description fresh = .ok newDescription) :
    freshParts newDescription parts = .ok [] := by
  unfold appendParts at appended
  split at appended
  · rename_i none
    cases appended
    rw [selected, none]
  · split at appended
    · rename_i text
      cases appended
      apply freshParts_eq_nil
      intro part member
      rcases stale_or_mem_of_freshParts selected part member with stale | new
      · exact stale.append _
      · have joined : part.toList <:+: ("\n".intercalate fresh).toList := infix_intercalate new
        refine .inr ((strip_within part).trans (joined.trans ?_))
        rw [String.toList_append]
        exact (List.suffix_append _ _).isInfix
    · cases appended

section Rules

variable (distinct : List String → List String) (toolName : String) (texts : ToolTexts)
  (reports : List ToolIssueReport) (primaryType : ToolIssueType)
  (knowledge : Option ToolKnowledge)

theorem generateFixWithRules_eq_ok_iff {fix : Fix} :
    generateFixWithRules distinct toolName texts reports primaryType knowledge = .ok fix ↔
      ∃ parts fresh, issueParts distinct reports primaryType = .ok parts ∧
        freshParts texts.description (withKnowledge knowledge parts) = .ok fresh ∧
        appendParts texts.description fresh = .ok fix.newDescription ∧
        fix.paramUpdates = .dict [] ∧
        fix.codeSuggestion = .str (ruleSuggestion distinct toolName reports primaryType) := by
  unfold generateFixWithRules
  rw [bind_eq_ok_iff]
  constructor
  · rintro ⟨parts, added, rest⟩
    obtain ⟨fresh, selected, rest⟩ := bind_eq_ok_iff.mp rest
    obtain ⟨newDescription, appended, done⟩ := bind_eq_ok_iff.mp rest
    cases done
    exact ⟨parts, fresh, added, selected, appended, rfl, rfl⟩
  · rintro ⟨parts, fresh, added, selected, appended, updates, suggestion⟩
    refine ⟨parts, added, bind_eq_ok_iff.mpr ⟨fresh, selected,
      bind_eq_ok_iff.mpr ⟨fix.newDescription, appended, ?_⟩⟩⟩
    cases fix
    dsimp only at updates suggestion
    rw [updates, suggestion]

/-- Applied to the description that they have made, the rules make it again. -/
theorem generateFixWithRules_again {fix : Fix}
    (fixed : generateFixWithRules distinct toolName texts reports primaryType knowledge = .ok fix) :
    generateFixWithRules distinct toolName { texts with description := fix.newDescription }
      reports primaryType knowledge = .ok fix := by
  obtain ⟨parts, fresh, added, selected, appended, updates, suggestion⟩ :=
    (generateFixWithRules_eq_ok_iff ..).mp fixed
  refine (generateFixWithRules_eq_ok_iff ..).mpr
    ⟨parts, [], added, freshParts_of_appended selected appended, ?_, updates, suggestion⟩
  unfold appendParts
  rw [if_pos rfl]

end Rules

/-- A report of an error, processed twice: the second fix keeps the description that the
first has made. -/
theorem generateFixWithRules_again_search :
    let reports : List ToolIssueReport :=
      [{ toolName := "search", issueType := .errorHandling, errorMessage := "timeout" }]
    let fix : Fix :=
      { newDescription := .str "Search.\n\n[Guardian 修正] 错误处理注意事项: timeout"
        codeSuggestion := .str (ruleSuggestion id "search" reports .errorHandling) }
    generateFixWithRules id "search" { description := fix.newDescription } reports .errorHandling
      none = .ok fix :=
  generateFixWithRules_again id "search" { description := .str "Search." } _ .errorHandling none rfl

end YouMi.Coordinator
