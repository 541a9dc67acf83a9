import Mathlib.Data.List.Forall2
import YouMi.Mcp.ToolStore.Migration

/-!
# What the migration keeps

A migration should succeed, keep what the rows hold, fill the lineage and the stage,
and change nothing when it runs again.  Adding columns one by one does so for every
old table whose names and versions are usual.
-/

namespace YouMi.Mcp.ToolStore

open YouMi.Core YouMi.Library YouMi.Python

/-! ## What a migration should do -/

def stageText : VersionStage → String
  | .candidate => "candidate"
  | .stable => "stable"

/-- `stage_of` of what a cell holds; a version that is no text has no number. -/
def stageOfCell : Cell → VersionStage
  | .text version => stageOf version
  | _ => .candidate

/-- The number `CAST` reads before the first dot is positive exactly for a stable version. -/
def SameStage : Cell → Prop
  | .null => True
  | .integer version => castInteger (beforeDot (toString version)) < 1
  | .text version => 1 ≤ castInteger (beforeDot version) ↔ isStable version

instance : DecidablePred SameStage := fun version =>
  match version with
  | .null => inferInstanceAs (Decidable True)
  | .integer version =>
      inferInstanceAs (Decidable (castInteger (beforeDot (toString version)) < 1))
  | .text version =>
      inferInstanceAs (Decidable (1 ≤ castInteger (beforeDot version) ↔ isStable version))

theorem stageCase_eq_iff (version : Cell) :
    stageCase version = .text (stageText (stageOfCell version)) ↔ SameStage version := by
  cases version with
  | null => exact iff_of_true rfl trivial
  | integer version =>
      change Cell.text (if 1 ≤ castInteger (beforeDot (toString version)) then "stable"
        else "candidate") = .text "candidate" ↔ castInteger (beforeDot (toString version)) < 1
      split
      · exact iff_of_false (by decide) (by omega)
      · exact iff_of_true rfl (by omega)
  | text version =>
      change Cell.text (if 1 ≤ castInteger (beforeDot version) then "stable" else "candidate") =
        .text (stageText (stageOf version)) ↔
          (1 ≤ castInteger (beforeDot version) ↔ isStable version)
      unfold isStable
      cases stageOf version <;> split <;> simp_all [stageText]

/--
A row of the upgraded table keeps its row id and its cells, but for a blank lineage
and an unset stage, and has what it should have in these two.
-/
structure RowUpgraded (columns : List Column) (old new : OldRow) : Prop where
  rowid : new.rowid = old.rowid
  kept : ∀ column ∈ columns, new.cell column = old.cell column ∨
    column = .lineageId ∧ Blank (old.cell column) ∨ column = .stage ∧ old.cell column = .null
  lineage : ¬ Blank (new.cell .lineageId)
  stage : .stage ∉ columns ∨ new.cell .stage ≠ old.cell .stage →
    new.cell .stage = .text (stageText (stageOfCell (old.cell .version)))

/-- What is claimed of the migration of a database whose tools table is the old one. -/
structure Migrates (db : Database) (old : SqlTable Column) : Prop where
  succeeds : (migrateSchema db).1 = .ok ()
  upgraded : ∃ new, (migrateSchema db).2.tools = some new ∧
    (∀ column ∈ old.columns, column ∈ new.columns) ∧
      List.Forall₂ (RowUpgraded old.columns) old.rows new.rows
  noTemporary : (migrateSchema db).2.toolsNew = none ∧ (migrateSchema db).2.vecToolsOld = none
  again : migrateSchema (migrateSchema db).2 = (.ok (), (migrateSchema db).2)

/-- A database of an earlier schema. -/
structure Legacy (db : Database) (old : SqlTable Column) : Prop where
  tools : db.tools = some old
  required : ∀ column ∈ requiredColumns, column ∈ old.columns
  toolsNew : db.toolsNew = none
  vecToolsOld : db.vecToolsOld = none

/-! ## Adding columns -/

/-- The cell of a row after the missing columns are added. -/
def addedCell (present : List Column) (row : OldRow) (column : Column) : Cell :=
  ((SqlTable.missing present migrations).lookup column).getD (row.cell column)

theorem addedCell_of_present {present : List Column} {column : Column} (here : column ∈ present)
    (row : OldRow) : addedCell present row column = row.cell column := by
  rw [addedCell, SqlTable.lookup_missing, if_pos here]
  rfl

/-- Some columns are never added. -/
theorem addedCell_of_no_migration {column : Column} (never : migrations.lookup column = none)
    (present : List Column) (row : OldRow) : addedCell present row column = row.cell column := by
  rw [addedCell, SqlTable.lookup_missing, never, ite_self]
  rfl

theorem addedCell_of_absent {present : List Column} {column : Column} {default : Cell}
    (absent : column ∉ present) (isDefault : migrations.lookup column = some default)
    (row : OldRow) : addedCell present row column = default := by
  rw [addedCell, SqlTable.lookup_missing, if_neg absent, isDefault]
  rfl

/-- The cell after the stage is filled, if it was missing. -/
def stagedCell (present : List Column) (row : OldRow) : Column → Cell :=
  if .stage ∈ present then addedCell present row
  else Function.update (addedCell present row) .stage (stageCase (row.cell .version))

def upgradedCell (present : List Column) (row : OldRow) : Column → Cell :=
  backfilledCell ⟨row.rowid, stagedCell present row⟩

def upgradedColumns (present : List Column) : List Column :=
  present ++ (SqlTable.missing present migrations).map Prod.fst

/-- The table after all statements about it. -/
def upgradedTable (table : SqlTable Column) : SqlTable Column :=
  table.remap (upgradedColumns table.columns) (upgradedCell table.columns)

section Upgrade

variable {db : Database} {table : SqlTable Column}

theorem addColumns_eq (tools : db.tools = some table) :
    addColumns db = (.ok (), { db with
      tools := some (table.remap (upgradedColumns table.columns) (addedCell table.columns)) }) := by
  unfold addColumns
  rw [tools]
  dsimp only
  rw [SqlTable.addMissing?_eq (by decide) fun column _ here => here]
  rfl

theorem mem_upgradedColumns {present : List Column} {column : Column} (here : column ∈ present) :
    column ∈ upgradedColumns present := List.mem_append_left _ here

/-- Every column of the schema but those that are never added is there afterwards. -/
theorem mem_upgradedColumns_of_migration {present : List Column} {column : Column}
    (migrated : column ∈ migrations.map Prod.fst) : column ∈ upgradedColumns present := by
  by_cases here : column ∈ present
  · exact mem_upgradedColumns here
  · obtain ⟨item, member, rfl⟩ := List.mem_map.mp migrated
    refine List.mem_append_right _ (List.mem_map_of_mem (List.mem_filter.mpr ⟨member, ?_⟩))
    simpa using here

theorem fillStages_eq (tools : db.tools = some table) (version : .version ∈ table.columns) :
    fillStages db = (.ok (), { db with
      tools := some (table.update fun row =>
        Function.update row.cell .stage (stageCase (row.cell .version))) }) := by
  unfold fillStages
  rw [tools]
  dsimp only
  rw [if_neg (not_not.mpr version)]

theorem addMissingColumns_eq (tools : db.tools = some table) (version : .version ∈ table.columns) :
    addMissingColumns db = (.ok (), { db with
      tools := some (table.remap (upgradedColumns table.columns) (stagedCell table.columns)) }) := by
  have added := addColumns_eq tools
  unfold addMissingColumns
  rw [tools]
  dsimp only
  by_cases staged : Column.stage ∈ table.columns
  · have same : stagedCell table.columns = addedCell table.columns := by
      funext row
      exact if_pos staged
    rw [if_pos staged, added, same]
  · have same : stagedCell table.columns = fun row =>
        Function.update (addedCell table.columns row) .stage (stageCase (row.cell .version)) := by
      funext row
      exact if_neg staged
    rw [if_neg staged, Script.andThen_of_ok added, same]
    rw [fillStages_eq rfl (mem_upgradedColumns version)]
    unfold SqlTable.update
    rw [SqlTable.remap_remap]
    have kept (row : OldRow) : addedCell table.columns row .version = row.cell .version :=
      addedCell_of_no_migration (by decide) _ row
    simp only [SqlTable.remap_columns, kept]

/-! ## The table of JSON vectors -/

/-- A table of JSON vectors that needs no level, or that can be given one. -/
def VecReady (table : SqlTable VecColumn) : Prop :=
  table.columns = [] ∨ .level ∈ table.columns ∨
    (∀ column ∈ vecColumns, column ≠ .level → column ∈ table.columns) ∧ VecInsertable table.rows

instance (table : SqlTable VecColumn) : Decidable (VecReady table) :=
  inferInstanceAs (Decidable (_ ∨ _ ∨ _))

def levelled (table : SqlTable VecColumn) : SqlTable VecColumn :=
  if table.columns = [] ∨ .level ∈ table.columns then table
  else table.remap vecColumns fun row => Function.update row.cell .level (.text "l1")

theorem levelled_done (table : SqlTable VecColumn) :
    (levelled table).columns = [] ∨ .level ∈ (levelled table).columns := by
  by_cases done : table.columns = [] ∨ .level ∈ table.columns
  · unfold levelled
    rw [if_pos done]
    exact done
  · unfold levelled
    rw [if_neg done]
    have level : VecColumn.level ∈ vecColumns := by decide
    exact .inr level

theorem levelled_levelled (table : SqlTable VecColumn) :
    levelled (levelled table) = levelled table :=
  if_pos (levelled_done table)

theorem vecReady_levelled (table : SqlTable VecColumn) : VecReady (levelled table) := by
  rcases levelled_done table with empty | level
  · exact .inl empty
  · exact .inr (.inl level)

theorem addLevel_ok (old : db.vecToolsOld = none)
    (ready : ∀ table, db.vecTools = some table → VecReady table) :
    addLevel db = (.ok (), { db with vecTools := db.vecTools.map levelled }) := by
  cases vec : db.vecTools with
  | none =>
      obtain ⟨_, _, vecTools, _, _, _, _, _⟩ := db
      dsimp only at vec
      rw [vec]
      rfl
  | some table =>
      unfold addLevel
      rw [vec, Option.map_some]
      dsimp only
      by_cases done : table.columns = [] ∨ .level ∈ table.columns
      · unfold levelled
        rw [if_pos done, if_pos done, ← vec]
      · obtain ⟨columns, insertable⟩ := ((ready table vec).resolve_left
          fun empty => done (.inl empty)).resolve_left fun level => done (.inr level)
        have complete : ¬ ∃ column ∈ vecColumns, column ≠ .level ∧ column ∉ table.columns := by
          rintro ⟨column, member, other, absent⟩
          exact absent (columns column member other)
        unfold levelled
        rw [if_neg done, if_neg done, old, if_neg (by decide), if_neg complete,
          if_neg (not_not.mpr insertable)]

/-- What does not fail was ready. -/
theorem vecReady_of_addLevel (ok : (addLevel db).1 = .ok ()) {table : SqlTable VecColumn}
    (vec : db.vecTools = some table) : VecReady table := by
  unfold addLevel at ok
  rw [vec] at ok
  dsimp only at ok
  split at ok
  · rename_i done
    exact done.imp_right Or.inl
  split at ok
  · cases ok
  split at ok
  · cases ok
  · rename_i complete
    split at ok
    · cases ok
    · rename_i insertable
      refine .inr (.inr ⟨fun column member other => ?_, not_not.mp insertable⟩)
      by_contra absent
      exact complete ⟨column, member, other, absent⟩

/-! ## The whole upgrade -/

theorem backfillLineage_eq (tools : db.tools = some table)
    (lineage : .lineageId ∈ table.columns) (toolName : .toolName ∈ table.columns) :
    backfillLineage db = (.ok (), { db with tools := some (table.update backfilledCell) }) := by
  unfold backfillLineage
  rw [tools]
  dsimp only
  rw [if_neg]
  rintro (absent | absent)
  · exact absent lineage
  · exact absent toolName

/-- The database after all statements about a table that has its `id` column. -/
def upgraded (db : Database) (table : SqlTable Column) : Database :=
  { db with
    tools := some (upgradedTable table)
    vecTools := db.vecTools.map levelled
    lineageIndex := true }

theorem upgrade_eq (tools : db.tools = some table)
    (required : ∀ column ∈ requiredColumns, column ∈ table.columns)
    (old : db.vecToolsOld = none) (ready : ∀ vec, db.vecTools = some vec → VecReady vec) :
    upgrade db = (.ok (), upgraded db table) := by
  have version := required .version (by decide)
  have toolName := required .toolName (by decide)
  let added : Database := { db with
    tools := some (table.remap (upgradedColumns table.columns) (stagedCell table.columns)) }
  let raised : Database := { added with vecTools := db.vecTools.map levelled }
  have adds : addMissingColumns db = (.ok (), added) := addMissingColumns_eq tools version
  have levels : addLevel added = (.ok (), raised) := addLevel_ok old ready
  have fills : backfillLineage raised = (.ok (), { raised with
      tools := some (upgradedTable table) }) := by
    rw [backfillLineage_eq rfl (mem_upgradedColumns_of_migration (by decide))
      (mem_upgradedColumns toolName)]
    unfold upgradedTable SqlTable.update
    rw [SqlTable.remap_remap]
    rfl
  unfold upgrade
  rw [Script.andThen_of_ok adds, Script.andThen_of_ok levels, Script.andThen_of_ok fills]
  rfl

theorem vecReady_of_upgrade (tools : db.tools = some table) (version : .version ∈ table.columns)
    (ok : (upgrade db).1 = .ok ()) {vec : SqlTable VecColumn} (isVec : db.vecTools = some vec) :
    VecReady vec := by
  unfold upgrade at ok
  rw [Script.andThen_of_ok (addMissingColumns_eq tools version), Script.andThen_ok_iff] at ok
  exact vecReady_of_addLevel ok.1 isVec

/-! ## A table that has all columns -/

section Complete

variable {present : List Column} (complete : ∀ column ∈ migrations.map Prod.fst, column ∈ present)

include complete

theorem missing_of_complete : SqlTable.missing present migrations = [] := by
  refine List.filter_eq_nil_iff.mpr fun item member => ?_
  simpa using complete item.1 (List.mem_map_of_mem member)

theorem upgradedColumns_of_complete : upgradedColumns present = present := by
  rw [upgradedColumns, missing_of_complete complete]
  exact List.append_nil _

/-- Only the lineage of a row can change then. -/
theorem upgradedCell_of_complete (row : OldRow) :
    upgradedCell present row = backfilledCell row := by
  have added : addedCell present row = row.cell := by
    funext column
    rw [addedCell, missing_of_complete complete]
    rfl
  unfold upgradedCell stagedCell
  rw [if_pos (complete .stage (by decide)), added]

end Complete

/-- A migrated table whose lineages are set stays as it is. -/
theorem upgradedTable_upgradedTable
    (lineage : ∀ row ∈ table.rows, ¬ Blank (upgradedCell table.columns row .lineageId)) :
    upgradedTable (upgradedTable table) = upgradedTable table := by
  have complete : ∀ column ∈ migrations.map Prod.fst, column ∈ upgradedColumns table.columns :=
    fun column migrated => mem_upgradedColumns_of_migration migrated
  have columns := upgradedColumns_of_complete complete
  have cells : upgradedCell (upgradedColumns table.columns) = backfilledCell :=
    funext (upgradedCell_of_complete complete)
  have again : upgradedTable (upgradedTable table) =
      (upgradedTable table).update backfilledCell := by
    change (upgradedTable table).remap (upgradedColumns (upgradedColumns table.columns))
      (upgradedCell (upgradedColumns table.columns)) = _
    rw [columns, cells]
    rfl
  rw [again]
  refine SqlTable.update_eq_self fun row member => ?_
  obtain ⟨source, isSource, rfl⟩ := List.mem_map.mp member
  exact if_neg (lineage source isSource)

theorem migrateSchema_of_id (tools : db.tools = some table) (id : .id ∈ table.columns) :
    migrateSchema db = upgrade db := by
  unfold migrateSchema
  rw [tools]
  dsimp only
  rw [if_neg (List.ne_nil_of_mem id), if_pos id]

theorem upgraded_again (required : ∀ column ∈ requiredColumns, column ∈ table.columns)
    (id : .id ∈ table.columns) (old : db.vecToolsOld = none)
    (lineage : ∀ row ∈ table.rows, ¬ Blank (upgradedCell table.columns row .lineageId)) :
    migrateSchema (upgraded db table) = (.ok (), upgraded db table) := by
  have vecs : (db.vecTools.map levelled).map levelled = db.vecTools.map levelled := by
    rw [Option.map_map]
    exact congrArg (db.vecTools.map ·) (funext levelled_levelled)
  have ready : ∀ vec, (upgraded db table).vecTools = some vec → VecReady vec := by
    intro vec isVec
    obtain ⟨source, _, rfl⟩ := Option.map_eq_some_iff.mp isVec
    exact vecReady_levelled source
  have run : upgrade (upgraded db table) =
      (.ok (), upgraded (upgraded db table) (upgradedTable table)) :=
    upgrade_eq rfl (fun column member => mem_upgradedColumns (required column member)) old ready
  rw [migrateSchema_of_id rfl (mem_upgradedColumns id), run]
  unfold upgraded
  rw [upgradedTable_upgradedTable lineage, vecs]

/-! ## The rows of an upgraded table -/

variable {columns : List Column} {row : OldRow}

theorem upgradedCell_of_ne {column : Column} (other : column ≠ .lineageId) :
    upgradedCell columns row column = stagedCell columns row column := by
  unfold upgradedCell backfilledCell
  split
  · exact Function.update_of_ne other _ _
  · rfl

theorem upgradedCell_of_present {column : Column} (here : column ∈ columns)
    (other : column ≠ .lineageId) : upgradedCell columns row column = row.cell column := by
  rw [upgradedCell_of_ne other]
  unfold stagedCell
  split
  · exact addedCell_of_present here row
  · rename_i absent
    have notStage : column ≠ .stage := by
      rintro rfl
      exact absent here
    rw [Function.update_of_ne notStage, addedCell_of_present here]

theorem upgradedCell_stage (absent : .stage ∉ columns) :
    upgradedCell columns row .stage = stageCase (row.cell .version) := by
  rw [upgradedCell_of_ne (by decide)]
  unfold stagedCell
  rw [if_neg absent, Function.update_self]

theorem stagedCell_of_ne {column : Column} (other : column ≠ .stage) :
    stagedCell columns row column = addedCell columns row column := by
  unfold stagedCell
  split
  · rfl
  · exact Function.update_of_ne other _ _

theorem upgradedCell_lineage : upgradedCell columns row .lineageId =
    if .lineageId ∉ columns ∨ Blank (row.cell .lineageId) then row.cell .toolName
    else row.cell .lineageId := by
  have name : stagedCell columns row .toolName = row.cell .toolName := by
    rw [stagedCell_of_ne (by decide)]
    exact addedCell_of_no_migration (by decide) columns row
  have lineage : stagedCell columns row .lineageId =
      if .lineageId ∈ columns then row.cell .lineageId else .text "" := by
    rw [stagedCell_of_ne (by decide)]
    split
    · rename_i here
      exact addedCell_of_present here row
    · rename_i absent
      exact addedCell_of_absent absent (by decide) row
  have filled : Blank (stagedCell columns row .lineageId) ↔
      .lineageId ∉ columns ∨ Blank (row.cell .lineageId) := by
    rw [lineage]
    split
    · rename_i here
      simp [here]
    · rename_i absent
      exact iff_of_true (.inl rfl) (.inl absent)
  unfold upgradedCell backfilledCell
  dsimp only
  by_cases blank : Blank (stagedCell columns row .lineageId)
  · rw [if_pos blank, if_pos (filled.mp blank), Function.update_self, name]
  · have kept := mt filled.mpr blank
    rw [if_neg blank, if_neg kept, lineage, if_pos (not_not.mp (not_or.mp kept).1)]

/-- Adding columns does what is claimed to a row, unless its name or version is unusual. -/
theorem rowUpgraded_iff :
    RowUpgraded columns row ⟨row.rowid, upgradedCell columns row⟩ ↔
      (.lineageId ∉ columns ∨ Blank (row.cell .lineageId) → ¬ Blank (row.cell .toolName)) ∧
        (.stage ∉ columns → SameStage (row.cell .version)) := by
  have lineage : ¬ Blank (upgradedCell columns row .lineageId) ↔
      (.lineageId ∉ columns ∨ Blank (row.cell .lineageId) → ¬ Blank (row.cell .toolName)) := by
    rw [upgradedCell_lineage]
    split
    · rename_i filled
      exact ⟨fun named _ => named, fun named => named filled⟩
    · rename_i kept
      exact iff_of_true (fun blank => kept (.inr blank)) fun filled => absurd filled kept
  constructor
  · intro law
    refine ⟨lineage.mp law.lineage, fun absent => ?_⟩
    rw [← stageCase_eq_iff, ← upgradedCell_stage absent]
    exact law.stage (.inl absent)
  · rintro ⟨named, staged⟩
    refine ⟨rfl, fun column here => ?_, lineage.mpr named, fun fills => ?_⟩
    · by_cases isLineage : column = .lineageId
      · rw [isLineage] at here ⊢
        by_cases blank : Blank (row.cell .lineageId)
        · exact .inr (.inl ⟨rfl, blank⟩)
        · left
          change upgradedCell columns row .lineageId = row.cell .lineageId
          rw [upgradedCell_lineage, if_neg]
          exact not_or.mpr ⟨not_not.mpr here, blank⟩
      · exact .inl (upgradedCell_of_present here isLineage)
    · have absent : .stage ∉ columns := by
        intro here
        rcases fills with absent | changed
        · exact absent here
        · exact changed (upgradedCell_of_present here (by decide))
      exact (upgradedCell_stage absent).trans ((stageCase_eq_iff _).mpr (staged absent))

end Upgrade

end YouMi.Mcp.ToolStore
