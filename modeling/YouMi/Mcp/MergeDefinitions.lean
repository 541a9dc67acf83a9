import YouMi.Core.Tool
import YouMi.Mcp.DictMerge

/-!
# Three-way merge of definitions

Dumped definitions have the same fields and no dictionary in any, so the merge of
three of them goes field by field: a field that differs in all three is a
conflict, and without one the merged dictionary is again a definition, each field
of which is ours or theirs.
-/

namespace YouMi.Mcp

open YouMi.Core YouMi.Library YouMi.Python YouMi.Python.PyVal

section Fields

variable (base ours theirs : ToolDefinition)

def fieldVerdict (field : String) : Verdict :=
  verdict pyEq (base.dump.get field) (ours.dump.get field) (theirs.dump.get field)

/-- Some field differs in all three definitions. -/
def Clash : Prop := ∃ field ∈ fieldNames, fieldVerdict base ours theirs field = .clash

/-- Each field is theirs already, or theirs has it from the base. -/
def Settled : Prop :=
  ∀ field ∈ fieldNames,
    pyEq (ours.dump.get field) (theirs.dump.get field) = true ∨
      pyEq (base.dump.get field) (theirs.dump.get field) = true

/-- Theirs in the fields that only theirs changed, ours in the others. -/
def fieldwise : ToolDefinition :=
  ToolDefinition.mix fun field =>
    if fieldVerdict base ours theirs field = .takeTheirs then theirs else ours

end Fields

section Merge

variable {base ours theirs : ToolDefinition}

theorem get_isSlot (d : ToolDefinition) (field : String) : IsSlot (d.dump.get field) :=
  .get d.isJson_dump field

theorem lookup_dump_of_field (d : ToolDefinition) {field : String} (member : field ∈ fieldNames) :
    d.dump.lookup field = some (d.dump.get field) ∧ (d.dump.get field).isSentinel = false := by
  have key : field ∈ d.dump.keys := member
  obtain ⟨value, found⟩ := Option.isSome_iff_exists.mp (Dict.lookup_isSome_iff_mem_keys.mpr key)
  have same := Dict.get_of_lookup found
  refine ⟨by rw [same, found], isSentinel_eq_false fun marker => ?_⟩
  have absent := (Dict.lookup_eq_none_iff_get d.isJson_dump).mpr marker
  rw [found] at absent
  cases absent

theorem lookup_fieldwise (base ours theirs : ToolDefinition) {field : String}
    (member : field ∈ fieldNames) :
    (fieldwise base ours theirs).dump.lookup field =
      (if fieldVerdict base ours theirs field = .takeTheirs then theirs
        else ours).dump.lookup field :=
  ToolDefinition.lookup_dump_mix member

theorem sortedKeys_dump {field : String} :
    field ∈ sortedKeys base.dump ours.dump theirs.dump ↔ field ∈ fieldNames := by
  rw [mem_sortedKeys_iff, base.keys_dump, ours.keys_dump, theirs.keys_dump, or_self, or_self]

theorem keyConflicts_dump (field : String) :
    keyConflicts base.dump ours.dump theirs.dump field =
      if fieldVerdict base ours theirs field = .clash then [field] else [] := by
  unfold keyConflicts fieldVerdict
  split
  · rename_i clash
    rw [if_pos clash]
    split
    · rename_i inner _ _ found _ _
      exact absurd found (base.get_dump_ne_dict field inner)
    · rfl
  · rename_i other
    rw [if_neg other]

theorem conflicts_dump_eq_nil_iff :
    (mergeDicts base.dump ours.dump theirs.dump).2 = [] ↔ ¬ Clash base ours theirs := by
  rw [mergeDicts_conflicts, List.flatMap_eq_nil_iff, Clash]
  simp [sortedKeys_dump, keyConflicts_dump]

/-- Without a conflict the merged dictionary has the fields of `fieldwise`. -/
theorem lookup_merged_dump (clean : ¬ Clash base ours theirs) {field : String}
    (member : field ∈ fieldNames) :
    (mergeDicts base.dump ours.dump theirs.dump).1.lookup field =
      (if fieldVerdict base ours theirs field = .takeTheirs then theirs
        else ours).dump.lookup field := by
  obtain ⟨oursHas, oursValue⟩ := lookup_dump_of_field ours member
  obtain ⟨theirsHas, theirsValue⟩ := lookup_dump_of_field theirs member
  rw [lookup_mergeDicts]
  unfold mergedLookup
  have settled : fieldVerdict base ours theirs field ≠ .clash :=
    fun found => clean ⟨field, member, found⟩
  unfold fieldVerdict at settled ⊢
  cases found : verdict pyEq (base.dump.get field) (ours.dump.get field)
      (theirs.dump.get field) with
  | agree => simp [oursHas, oursValue]
  | takeTheirs => simp [theirsHas, theirsValue]
  | keepOurs => simp [oursHas]
  | clash => exact absurd found settled

theorem modelValidate_merged (clean : ¬ Clash base ours theirs) :
    ToolDefinition.modelValidate (mergeDicts base.dump ours.dump theirs.dump).1 =
      some (fieldwise base ours theirs) :=
  ToolDefinition.modelValidate_mix fun _ member => lookup_merged_dump clean member

/-- A settled field is not taken from theirs, and not in conflict. -/
theorem fieldVerdict_cases (field : String) :
    (pyEq (ours.dump.get field) (theirs.dump.get field) = true ∨
        pyEq (base.dump.get field) (theirs.dump.get field) = true) ↔
      fieldVerdict base ours theirs field ≠ .takeTheirs ∧
        fieldVerdict base ours theirs field ≠ .clash := by
  have hb := get_isSlot base field
  have ho := get_isSlot ours field
  have ht := get_isSlot theirs field
  unfold fieldVerdict
  rw [ne_eq, ne_eq, verdict_eq_takeTheirs_iff, verdict_eq_clash_iff, AllDiffer]
  constructor
  · rintro (agree | kept)
    · simp [agree]
    · refine ⟨fun changed => ?_, by simp [kept]⟩
      have agree := ho.pyEq_trans hb ht (hb.pyEq_symm ho changed.2) kept
      rw [agree] at changed
      cases changed.1
  · rintro ⟨notTaken, notClash⟩
    cases agree : pyEq (ours.dump.get field) (theirs.dump.get field) with
    | true => exact .inl rfl
    | false =>
        cases kept : pyEq (base.dump.get field) (theirs.dump.get field) with
        | true => exact .inr rfl
        | false =>
            have changed : pyEq (base.dump.get field) (ours.dump.get field) = false := by
              simpa [agree] using notTaken
            exact absurd ⟨changed, kept, agree⟩ notClash

theorem Settled.clean (settled : Settled base ours theirs) : ¬ Clash base ours theirs := by
  rintro ⟨field, member, clash⟩
  exact ((fieldVerdict_cases field).mp (settled field member)).2 clash

theorem mix_congr {pick : String → ToolDefinition} {d : ToolDefinition}
    (same : ∀ field ∈ fieldNames, pick field = d) : ToolDefinition.mix pick = d := by
  simp only [fieldNames, List.forall_mem_cons] at same
  obtain ⟨h1, h2, h3, h4, h5, h6, h7, h8, h9, _⟩ := same
  simp only [ToolDefinition.mix, h1, h2, h3, h4, h5, h6, h7, h8, h9]

/-- A merge without conflict results in ours exactly if all fields are settled. -/
theorem fieldwise_eq_ours_iff (clean : ¬ Clash base ours theirs) :
    fieldwise base ours theirs = ours ↔ Settled base ours theirs := by
  constructor
  · intro same field member
    rw [fieldVerdict_cases]
    refine ⟨fun taken => ?_, fun clash => clean ⟨field, member, clash⟩⟩
    have fields := lookup_fieldwise base ours theirs member
    rw [same, if_pos taken, (lookup_dump_of_field ours member).1,
      (lookup_dump_of_field theirs member).1, Option.some.injEq] at fields
    have differ := (verdict_eq_takeTheirs_iff.mp taken).1
    rw [fields, (get_isSlot theirs field).pyEq_refl] at differ
    cases differ
  · exact fun settled => mix_congr fun field member =>
      if_neg ((fieldVerdict_cases field).mp (settled field member)).1

/-- What a merge results in is settled: merging again right away changes nothing. -/
theorem settled_fieldwise (clean : ¬ Clash base ours theirs) :
    Settled base (fieldwise base ours theirs) theirs := by
  intro field member
  have fields := lookup_fieldwise base ours theirs member
  rw [(lookup_dump_of_field _ member).1] at fields
  split at fields
  · rw [(lookup_dump_of_field theirs member).1, Option.some.injEq] at fields
    rw [fields]
    exact .inl (get_isSlot theirs field).pyEq_refl
  · rename_i notTaken
    rw [(lookup_dump_of_field ours member).1, Option.some.injEq] at fields
    rw [fields, fieldVerdict_cases]
    exact ⟨notTaken, fun clash => clean ⟨field, member, clash⟩⟩

end Merge

end YouMi.Mcp
