import Mathlib.Data.Prod.Lex
import YouMi.Library.Newest
import YouMi.Library.RowTable
import YouMi.Mcp.DictDiff
import YouMi.Mcp.Models

/-!
# The rows of the tools table

Rows of the `tools` table, the identifiers they are given, and the queries that
pick one row of a branch: the one created last, the one created first, and the
one flagged as the head.  Creation times are compared as the stored texts are;
rows created at the same time are ordered by row id.
-/

namespace YouMi.Mcp.ToolStore

open YouMi.Core YouMi.Library

structure ToolRow where
  id : Nat
  toolId : String
  toolName : String
  version : String
  parentVersionId : Option String
  providerId : String
  summary : String
  /-- The definition that the column `definition_json` holds as text. -/
  definition : ToolDefinition
  language : String
  runtime : String
  essential : Bool
  riskLevel : String
  requiredPermissions : List String
  lineageId : String
  summaryL2 : String
  branch : String
  isHead : Bool
  /-- Nothing where the column holds the empty text. -/
  diffPatch : Option DictDiff
  origin : ToolOrigin
  stage : VersionStage
  createdAt : Nat

instance : Keyed ToolRow String where
  rowid := ToolRow.id
  uniqueKey := ToolRow.toolId
  assign id row := { row with id := id }
  rowid_assign _ _ := rfl
  uniqueKey_assign _ _ := rfl

abbrev ToolTable := RowTable ToolRow

/-- `ORDER BY created_at, rowid`. -/
def ToolRow.age (row : ToolRow) : ℕ ×ₗ ℕ := toLex (row.createdAt, row.id)

/-- The row is on the branch of the tool. -/
def ToolRow.On (row : ToolRow) (toolName branch : String) : Prop :=
  row.toolName = toolName ∧ row.branch = branch

instance (row : ToolRow) (toolName branch : String) : Decidable (row.On toolName branch) :=
  inferInstanceAs (Decidable (_ ∧ _))

def HasBranch (rows : List ToolRow) (toolName branch : String) : Prop :=
  ∃ row ∈ rows, row.On toolName branch

instance (rows : List ToolRow) (toolName branch : String) :
    Decidable (HasBranch rows toolName branch) :=
  inferInstanceAs (Decidable (∃ row ∈ rows, row.On toolName branch))

/-! ## Identifiers -/

def mainToolId (toolName version : String) : String := toolName ++ "@" ++ version

def branchToolId (toolName branch version : String) : String :=
  toolName ++ "@" ++ branch ++ "/" ++ version

/-- The identifier of a version on a branch. -/
def toolIdOn (toolName branch version : String) : String :=
  if branch = "main" then mainToolId toolName version else branchToolId toolName branch version

theorem toolIdOn_main (toolName version : String) :
    toolIdOn toolName "main" version = mainToolId toolName version := if_pos rfl

/-- A branch name `create_branch` accepts, or `main`. -/
def LegalBranch (branch : String) : Prop := '@' ∉ branch.toList ∧ '/' ∉ branch.toList

instance (branch : String) : Decidable (LegalBranch branch) :=
  inferInstanceAs (Decidable (_ ∧ _))

/-! ## Queries -/

section Queries

variable (rows : List ToolRow) (toolName branch : String)

def branchRows : List ToolRow := rows.filter fun row => row.On toolName branch

/-- The row of the branch created last; the store's code calls it the branch head. -/
def newestOn : Option ToolRow := newest ToolRow.age (branchRows rows toolName branch)

def oldestOn : Option ToolRow := oldest ToolRow.age (branchRows rows toolName branch)

/-- The row with the flag `is_head` on `main`; the newest if there are several. -/
def flaggedHead : Option ToolRow :=
  newest ToolRow.age ((branchRows rows toolName "main").filter ToolRow.isHead)

/-- The row of the tool created last, on whatever branch. -/
def newestOfTool : Option ToolRow :=
  newest ToolRow.age (rows.filter fun row => row.toolName = toolName)

def rowById (toolId : String) : Option ToolRow := rows.find? fun row => row.toolId = toolId

/-- The main row of a lineage created last; for an unknown lineage, that of the tool so named. -/
def lineageHead (lineageId : String) : Option ToolRow :=
  (newest ToolRow.age
      (rows.filter fun row => row.lineageId = lineageId ∧ row.branch = "main")).or
    (newestOn rows lineageId "main")

end Queries

variable {rows : List ToolRow} {toolName branch : String} {row : ToolRow}

@[simp]
theorem mem_branchRows :
    row ∈ branchRows rows toolName branch ↔ row ∈ rows ∧ row.On toolName branch := by
  simp [branchRows]

theorem newestOn_mem (top : newestOn rows toolName branch = some row) :
    row ∈ rows ∧ row.On toolName branch :=
  mem_branchRows.mp (newest_mem top)

theorem le_newestOn (top : newestOn rows toolName branch = some row) {other : ToolRow}
    (member : other ∈ rows) (on : other.On toolName branch) : other.age ≤ row.age :=
  le_newest top (mem_branchRows.mpr ⟨member, on⟩)

theorem exists_newestOn (member : row ∈ rows) (on : row.On toolName branch) :
    ∃ top, newestOn rows toolName branch = some top :=
  exists_newest (mem_branchRows.mpr ⟨member, on⟩)

theorem exists_oldestOn (member : row ∈ rows) (on : row.On toolName branch) :
    ∃ first, oldestOn rows toolName branch = some first :=
  exists_oldest (mem_branchRows.mpr ⟨member, on⟩)

theorem newestOn_eq_none_iff :
    newestOn rows toolName branch = none ↔ ∀ row ∈ rows, ¬ row.On toolName branch := by
  rw [newestOn, newest_eq_none_iff, branchRows, List.filter_eq_nil_iff]
  simp

theorem flaggedHead_mem (found : flaggedHead rows toolName = some row) :
    row ∈ rows ∧ row.On toolName "main" ∧ row.isHead = true := by
  have member := newest_mem found
  rw [List.mem_filter, mem_branchRows] at member
  exact ⟨member.1.1, member.1.2, member.2⟩

theorem flaggedHead_eq_none_iff :
    flaggedHead rows toolName = none ↔
      ∀ row ∈ rows, row.On toolName "main" → row.isHead = false := by
  rw [flaggedHead, newest_eq_none_iff, List.filter_eq_nil_iff]
  simp

theorem newestOfTool_mem (found : newestOfTool rows toolName = some row) :
    row ∈ rows ∧ row.toolName = toolName := by
  simpa using newest_mem found

theorem newestOfTool_eq_none_iff :
    newestOfTool rows toolName = none ↔ ∀ row ∈ rows, row.toolName ≠ toolName := by
  rw [newestOfTool, newest_eq_none_iff, List.filter_eq_nil_iff]
  simp

theorem rowById_mem {toolId : String} (found : rowById rows toolId = some row) :
    row ∈ rows ∧ row.toolId = toolId :=
  ⟨List.mem_of_find?_eq_some found, by simpa using List.find?_some found⟩

theorem rowById_eq_none_iff {toolId : String} :
    rowById rows toolId = none ↔ ∀ row ∈ rows, row.toolId ≠ toolId := by
  simp [rowById]

/-- Ages tell the rows of a table apart. -/
theorem age_injective (table : ToolTable) : KeyInjective ToolRow.age table.rows := by
  intro first hfirst second hsecond same
  have ids : first.id = second.id := (Prod.mk.inj (toLex.injective same)).2
  exact RowTable.eq_of_rowid hfirst hsecond ids

theorem age_lt_iff {first second : ToolRow} :
    first.age < second.age ↔
      first.createdAt < second.createdAt ∨
        first.createdAt = second.createdAt ∧ first.id < second.id := by
  unfold ToolRow.age
  rw [Prod.Lex.toLex_lt_toLex]

theorem newestOn_eq_some_iff {table : ToolTable} :
    newestOn table.rows toolName branch = some row ↔
      (row ∈ table.rows ∧ row.On toolName branch) ∧
        ∀ other ∈ table.rows, other.On toolName branch → other.age ≤ row.age := by
  have inj : KeyInjective ToolRow.age (branchRows table.rows toolName branch) :=
    (age_injective table).subset fun row member => (mem_branchRows.mp member).1
  rw [newestOn, newest_eq_some_iff inj]
  simp only [mem_branchRows, and_imp]

end YouMi.Mcp.ToolStore
