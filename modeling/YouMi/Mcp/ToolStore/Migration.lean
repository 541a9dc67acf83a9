import Mathlib.Algebra.Ring.Int.Defs
import Mathlib.Algebra.Order.Ring.Int
import YouMi.Core.Versioning
import YouMi.Library.SqlTable

/-!
# Upgrading an old database

`_migrate_schema` brings the tools table of an earlier schema up to date: it
rebuilds the table if the `id` column is missing, adds the other columns that are
missing, fills the stage and the lineage of old rows, and gives the table of JSON
vectors its `level`.
-/

namespace YouMi.Mcp.ToolStore

open YouMi.Core YouMi.Library YouMi.Python

/-- The columns of the tools table; an old table may have others. -/
inductive Column where
  | id
  | toolId
  | toolName
  | version
  | parentVersionId
  | providerId
  | summary
  | definitionJson
  | handlerModule
  | language
  | runtime
  | essential
  | riskLevel
  | requiredPermissions
  | lineageId
  | summaryL2
  | branch
  | isHead
  | diffPatch
  | origin
  | stage
  | createdAt
  | updatedAt
  | other (name : String)
  deriving DecidableEq, Repr

abbrev OldRow := SqlRow Column

/-- The columns of `vec_tools`. -/
inductive VecColumn where
  | toolId
  | toolName
  | embeddingJson
  | level
  | updatedAt
  deriving DecidableEq, Repr

/-- What of a database file the migration touches. -/
structure Database where
  tools : Option (SqlTable Column)
  toolsNew : Option (SqlTable Column)
  vecTools : Option (SqlTable VecColumn)
  vecToolsOld : Option (SqlTable VecColumn)
  /-- The `vec0` tables `vec_tools_idx` and `vec_tools_l2_idx` exist. -/
  vecToolsIdx : Bool
  vecToolsL2Idx : Bool
  /-- The `vec0` module is loaded. -/
  vec0 : Bool
  /-- The index `idx_tools_lineage` exists. -/
  lineageIndex : Bool

inductive SqlError where
  | noSuchColumn
  | duplicateColumn
  | tableExists
  | constraintFailed
  | noSuchModule
  deriving DecidableEq, Repr

abbrev Migration := Script SqlError Database

/-! ## The stage of a version in SQL -/

/-- White space that `CAST` skips. -/
def isSqlSpace (c : Char) : Bool := c = ' ' || (9 ≤ c.toNat && c.toNat ≤ 13)

def digitsValue (digits : List Char) : Int :=
  digits.foldl (fun value c => 10 * value + (c.toNat - '0'.toNat : Nat)) 0

/-- `CAST(text AS INTEGER)`: the number at the start, within 64 bits. -/
def castInteger (text : List Char) : Int :=
  match text.dropWhile isSqlSpace with
  | '-' :: rest => max (-2 ^ 63) (-digitsValue (rest.takeWhile Char.isDigit))
  | '+' :: rest => min (2 ^ 63 - 1) (digitsValue (rest.takeWhile Char.isDigit))
  | rest => min (2 ^ 63 - 1) (digitsValue (rest.takeWhile Char.isDigit))

/-- `substr(version, 1, instr(version || '.', '.') - 1)`. -/
def beforeDot (version : String) : List Char := version.toList.takeWhile (· ≠ '.')

/-- The `CASE` that fills the stage of a row. -/
def stageCase : Cell → Cell
  | .null => .text "candidate"
  | .integer version =>
      .text (if 1 ≤ castInteger (beforeDot (toString version)) then "stable" else "candidate")
  | .text version =>
      .text (if 1 ≤ castInteger (beforeDot version) then "stable" else "candidate")

/-! ## Rebuilding the table -/

/-- The columns of `tools_new` but for `id`, in the order of its `INSERT`. -/
def copiedColumns : List Column :=
  [.toolId, .toolName, .version, .parentVersionId, .providerId, .summary, .definitionJson,
    .handlerModule, .language, .runtime, .essential, .riskLevel, .requiredPermissions, .lineageId,
    .summaryL2, .branch, .isHead, .diffPatch, .origin, .stage, .createdAt, .updatedAt]

def schemaColumns : List Column := .id :: copiedColumns

/-- The columns of `tools_new` that are `NOT NULL`. -/
def requiredColumns : List Column :=
  [.toolId, .toolName, .version, .definitionJson, .createdAt, .updatedAt]

/-- What is selected from an old row for `tools_new`. -/
def rebuiltCell (row : OldRow) : Column → Cell
  | .id => .integer row.rowid
  | .riskLevel => (row.cell .riskLevel).coalesce (.text "low")
  | .requiredPermissions => (row.cell .requiredPermissions).coalesce (.text "[]")
  | .lineageId => (row.cell .lineageId).coalesce (row.cell .toolName)
  | .summaryL2 => (row.cell .summaryL2).coalesce (.text "")
  | .branch => (row.cell .branch).coalesce (.text "main")
  | .isHead => (row.cell .isHead).coalesce (.integer 1)
  | .diffPatch => (row.cell .diffPatch).coalesce (.text "")
  | .origin => (row.cell .origin).coalesce (.text "generated")
  | .stage => (row.cell .stage).coalesce (stageCase (row.cell .version))
  | column => row.cell column

/-- The constraints of `tools_new`. -/
def Insertable (rows : List OldRow) : Prop :=
  (∀ row ∈ rows, ∀ column ∈ requiredColumns, row.cell column ≠ .null) ∧
    (rows.map fun row => row.cell .toolId).Nodup

instance (rows : List OldRow) : Decidable (Insertable rows) :=
  inferInstanceAs (Decidable (_ ∧ _))

def createToolsNew : Migration := fun db =>
  if db.toolsNew.isSome then (.error .tableExists, db)
  else (.ok (), { db with toolsNew := some (.empty schemaColumns) })

/-- `INSERT INTO tools_new … SELECT … FROM tools`. -/
def insertToolsNew (table : SqlTable Column) : Migration := fun db =>
  if ∃ column ∈ copiedColumns, column ∉ table.columns then (.error .noSuchColumn, db)
  else if ¬ Insertable table.rows then (.error .constraintFailed, db)
  else (.ok (), { db with toolsNew := some (table.remap schemaColumns rebuiltCell) })

/-- `DROP TABLE tools`, which drops its indexes, and the renaming of `tools_new`. -/
def replaceTools : Migration := fun db =>
  (.ok (), { db with tools := db.toolsNew, toolsNew := none, lineageIndex := false })

/-- `DROP TABLE IF EXISTS` for the tables of vectors. -/
def dropVecToolsIdx : Migration := fun db =>
  if db.vecToolsIdx ∧ ¬ db.vec0 then (.error .noSuchModule, db)
  else (.ok (), { db with vecToolsIdx := false })

def dropVecToolsL2Idx : Migration := fun db =>
  if db.vecToolsL2Idx ∧ ¬ db.vec0 then (.error .noSuchModule, db)
  else (.ok (), { db with vecToolsL2Idx := false })

def dropVecTools : Migration := fun db => (.ok (), { db with vecTools := none })

def rebuildTools (table : SqlTable Column) : Migration :=
  createToolsNew.andThen <| (insertToolsNew table).andThen <| replaceTools.andThen <|
    dropVecToolsIdx.andThen <| dropVecToolsL2Idx.andThen dropVecTools

/-! ## Adding columns -/

/-- The columns that are added one by one, with their defaults. -/
def migrations : List (Column × Cell) :=
  [(.riskLevel, .text "low"), (.requiredPermissions, .text "[]"), (.lineageId, .text ""),
    (.summaryL2, .text ""), (.branch, .text "main"), (.isHead, .integer 1), (.diffPatch, .text ""),
    (.origin, .text "generated"), (.stage, .text "candidate")]

def addColumns : Migration := fun db =>
  match db.tools with
  | none => (.ok (), db)
  | some table =>
      match table.addMissing? table.columns migrations with
      | none => (.error .duplicateColumn, db)
      | some added => (.ok (), { db with tools := some added })

/-- `UPDATE tools SET stage = CASE …`. -/
def fillStages : Migration := fun db =>
  match db.tools with
  | none => (.ok (), db)
  | some table =>
      if .version ∉ table.columns then (.error .noSuchColumn, db)
      else
        (.ok (), { db with
          tools := some (table.update fun row =>
            Function.update row.cell .stage (stageCase (row.cell .version))) })

/-- The columns that are missing, and the stage of all rows if it was among them. -/
def addMissingColumns : Migration := fun db =>
  match db.tools with
  | none => (.ok (), db)
  | some table =>
      if .stage ∈ table.columns then addColumns db else (addColumns.andThen fillStages) db

/-! ## The table of JSON vectors -/

/-- The constraints of `vec_tools`, with the first level for every row. -/
def VecInsertable (rows : List (SqlRow VecColumn)) : Prop :=
  (∀ row ∈ rows, row.cell .toolId ≠ .null ∧ row.cell .toolName ≠ .null ∧
      row.cell .embeddingJson ≠ .null ∧ row.cell .updatedAt ≠ .null) ∧
    (rows.map fun row => row.cell .toolId).Nodup

instance (rows : List (SqlRow VecColumn)) : Decidable (VecInsertable rows) :=
  inferInstanceAs (Decidable (_ ∧ _))

def vecColumns : List VecColumn := [.toolId, .toolName, .embeddingJson, .level, .updatedAt]

/-- `vec_tools` without `level` is renamed, created anew, filled, and the old one dropped. -/
def addLevel : Migration := fun db =>
  match db.vecTools with
  | none => (.ok (), db)
  | some table =>
      if table.columns = [] ∨ .level ∈ table.columns then (.ok (), db)
      else if db.vecToolsOld.isSome then (.error .tableExists, db)
      else
        let renamed := { db with vecTools := some (.empty vecColumns), vecToolsOld := some table }
        if ∃ column ∈ vecColumns, column ≠ .level ∧ column ∉ table.columns then
          (.error .noSuchColumn, renamed)
        else if ¬ VecInsertable table.rows then (.error .constraintFailed, renamed)
        else
          (.ok (), { db with
            vecTools := some (table.remap vecColumns fun row =>
              Function.update row.cell .level (.text "l1")) })

/-! ## Lineages -/

/-- `lineage_id = '' OR lineage_id IS NULL`. -/
def Blank (cell : Cell) : Prop := cell = .text "" ∨ cell = .null

instance (cell : Cell) : Decidable (Blank cell) := inferInstanceAs (Decidable (_ ∨ _))

def backfilledCell (row : OldRow) : Column → Cell :=
  if Blank (row.cell .lineageId) then
    Function.update row.cell .lineageId (row.cell .toolName)
  else row.cell

def backfillLineage : Migration := fun db =>
  match db.tools with
  | none => (.ok (), db)
  | some table =>
      if .lineageId ∉ table.columns ∨ .toolName ∉ table.columns then (.error .noSuchColumn, db)
      else (.ok (), { db with tools := some (table.update backfilledCell) })

def createLineageIndex : Migration := fun db => (.ok (), { db with lineageIndex := true })

/-- What is done to a table that has its `id` column. -/
def upgrade : Migration :=
  addMissingColumns.andThen <| addLevel.andThen <| backfillLineage.andThen createLineageIndex

/-- `_migrate_schema`. -/
def migrateSchema : Migration := fun db =>
  match db.tools with
  | none => (.ok (), db)
  | some table =>
      if table.columns = [] then (.ok (), db)
      else if .id ∈ table.columns then upgrade db
      else ((rebuildTools table).andThen upgrade) db

end YouMi.Mcp.ToolStore
