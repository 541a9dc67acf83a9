import YouMi.Mcp.ToolStore.WellFormed

/-!
# Identifiers of versions

`upsert_tool`, `create_version`, `create_branch` and `promote_to_stable` join a tool, a branch and
a version to a text.  Tool names are arbitrary, but branch names and valid versions are free of
the separators, so the text tells all three.
-/

namespace YouMi.Mcp.ToolStore

open YouMi.Core YouMi.Library

variable {V : Type}

/-- A version of a tool on a branch that can be. -/
structure VersionPlace where
  toolName : String
  branch : String
  version : String
  legal : LegalBranch branch
  valid : isValidSemver version = true

namespace VersionPlace

def toolId (place : VersionPlace) : String :=
  toolIdOn place.toolName place.branch place.version

theorem toolId_injective : Function.Injective toolId := by
  rintro ⟨toolName, branch, version, legal, valid⟩ ⟨toolName', branch', version', legal', valid'⟩
    same
  obtain ⟨rfl, rfl, rfl⟩ := toolIdOn_inj legal legal' valid valid' same
  rfl

/-- The row is written for the version of the tool on the branch. -/
structure Names (place : VersionPlace) (row : ToolRow) : Prop where
  on : row.On place.toolName place.branch
  version : row.version = place.version
  toolId : row.toolId = place.toolId

end VersionPlace

/-- Rows have the identifiers of their places, a row that a call writes meets none but of its own
place, and a version of a tool is found on `main`. -/
structure ToldApart (s : StoreState V) : Prop where
  stored : ∀ row ∈ s.tools.rows, ∃ place : VersionPlace, place.Names row
  written : ∀ (env : Env V) (call : Call V) (row : ToolRow), Makes env s.tools.rows call row →
    ∃ place : VersionPlace, place.Names row ∧
      ∀ old ∈ s.tools.rows, old.toolId = row.toolId → place.Names old
  found : ∀ toolName version row, isValidSemver version = true →
    (getTool s.tools.rows toolName version = some row ↔
      row ∈ s.tools.rows ∧ row.On toolName "main" ∧ row.version = version)

theorem WellFormedRow.exists_place {row : ToolRow} (form : WellFormedRow row) :
    ∃ place : VersionPlace, place.Names row :=
  ⟨⟨row.toolName, row.branch, row.version, form.branch, form.version⟩, ⟨rfl, rfl⟩, rfl, form.toolId⟩

theorem ne_empty_of_valid {version : String} (valid : isValidSemver version = true) :
    version ≠ "" := by
  rintro rfl
  exact absurd valid (by decide)

section Rows

variable {table : ToolTable} (wellFormed : WellFormed table.rows)

include wellFormed

theorem names_of_toolId {place : VersionPlace} {row : ToolRow} (member : row ∈ table.rows)
    (same : row.toolId = place.toolId) : place.Names row := by
  obtain ⟨on, isVersion⟩ := wellFormed.on_of_toolId member place.legal place.valid same
  exact ⟨on, isVersion, same⟩

/-- The place of a version on `main` has one row at most, and `get_tool` reads it. -/
theorem getTool_eq_some_iff {toolName version : String} {row : ToolRow}
    (valid : isValidSemver version = true) :
    getTool table.rows toolName version = some row ↔
      row ∈ table.rows ∧ row.On toolName "main" ∧ row.version = version := by
  unfold getTool
  rw [if_pos (ne_empty_of_valid valid)]
  constructor
  · intro found
    obtain ⟨member, isId⟩ := rowById_mem found
    have isMain : row.toolId = toolIdOn toolName "main" version :=
      isId.trans (toolIdOn_main _ _).symm
    exact ⟨member, wellFormed.on_of_toolId member legalBranch_main valid isMain⟩
  · rintro ⟨member, on, rfl⟩
    have isId : row.toolId = mainToolId toolName row.version :=
      (wellFormed.toolId_of_on member on).trans (toolIdOn_main _ _)
    cases found : rowById table.rows (mainToolId toolName row.version) with
    | none => exact absurd isId (rowById_eq_none_iff.mp found row member)
    | some other =>
        obtain ⟨there, otherId⟩ := rowById_mem found
        rw [RowTable.eq_of_uniqueKey there member (otherId.trans isId.symm)]

end Rows

theorem toldApart_of_wellFormed {s : StoreState V} (wellFormed : WellFormed s.tools.rows) :
    ToldApart s where
  stored := fun row member => (wellFormed.each row member).exists_place
  written := by
    intro env call row made
    obtain ⟨place, names⟩ := (made.wellFormedRow wellFormed.each).exists_place
    refine ⟨place, names, fun old member same => ?_⟩
    exact names_of_toolId wellFormed member (same.trans names.toolId)
  found := fun _ _ _ valid => getTool_eq_some_iff wellFormed valid

/-- Identifiers are injective, and in every reachable state no write and no lookup takes a row of
one tool or branch for one of another. -/
theorem toolIds_told_apart (vecExtension : Option (VecExtension V))
    (actions : List (Env V × Call V)) :
    Function.Injective VersionPlace.toolId ∧
      ToldApart (run step (StoreState.empty vecExtension) actions) :=
  ⟨VersionPlace.toolId_injective,
    toldApart_of_wellFormed (reachableState_run vecExtension actions).wellFormed⟩

end YouMi.Mcp.ToolStore
