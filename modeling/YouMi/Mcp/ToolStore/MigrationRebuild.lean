import YouMi.Mcp.ToolStore.MigrationLaws

/-!
# Which old tables are migrated

A table without `id` is rebuilt from a fixed list of columns.  Any of them may be
missing, and what else the table has is lost: only a table that lacks nothing but
`id` gets through.
-/

namespace YouMi.Mcp.ToolStore

open YouMi.Core YouMi.Library YouMi.Python

section Rebuild

variable {db : Database} {table : SqlTable Column}

/-! ## Rebuilding the table -/

/-- The columns of a rebuilt table that get a default where an old row has none. -/
def defaultedColumns : List Column :=
  [.riskLevel, .requiredPermissions, .summaryL2, .branch, .isHead, .diffPatch, .origin]

/-- What the rebuilding needs in order not to fail. -/
structure Rebuilds (db : Database) (table : SqlTable Column) : Prop where
  copied : ∀ column ∈ copiedColumns, column ∈ table.columns
  insertable : Insertable table.rows
  idx : db.vecToolsIdx → db.vec0
  l2Idx : db.vecToolsL2Idx → db.vec0

def rebuilt (db : Database) (table : SqlTable Column) : Database :=
  { db with
    tools := some (table.remap schemaColumns rebuiltCell)
    toolsNew := none
    vecTools := none
    vecToolsIdx := false
    vecToolsL2Idx := false
    lineageIndex := false }

theorem createToolsNew_eq (new : db.toolsNew = none) :
    createToolsNew db = (.ok (), { db with toolsNew := some (.empty schemaColumns) }) := by
  unfold createToolsNew
  rw [new]
  rfl

theorem insertToolsNew_eq (copied : ∀ column ∈ copiedColumns, column ∈ table.columns)
    (insertable : Insertable table.rows) :
    insertToolsNew table db =
      (.ok (), { db with toolsNew := some (table.remap schemaColumns rebuiltCell) }) := by
  have complete : ¬ ∃ column ∈ copiedColumns, column ∉ table.columns := by
    rintro ⟨column, member, absent⟩
    exact absent (copied column member)
  unfold insertToolsNew
  rw [if_neg complete, if_neg (not_not.mpr insertable)]

theorem of_insertToolsNew (ok : (insertToolsNew table db).1 = .ok ()) :
    (∀ column ∈ copiedColumns, column ∈ table.columns) ∧ Insertable table.rows := by
  unfold insertToolsNew at ok
  split at ok
  · cases ok
  · rename_i complete
    split at ok
    · cases ok
    · rename_i insertable
      refine ⟨fun column member => ?_, not_not.mp insertable⟩
      by_contra absent
      exact complete ⟨column, member, absent⟩

theorem dropVecToolsIdx_eq (loaded : db.vecToolsIdx → db.vec0) :
    dropVecToolsIdx db = (.ok (), { db with vecToolsIdx := false }) := by
  unfold dropVecToolsIdx
  rw [if_neg]
  rintro ⟨there, missing⟩
  exact missing (loaded there)

theorem dropVecToolsL2Idx_eq (loaded : db.vecToolsL2Idx → db.vec0) :
    dropVecToolsL2Idx db = (.ok (), { db with vecToolsL2Idx := false }) := by
  unfold dropVecToolsL2Idx
  rw [if_neg]
  rintro ⟨there, missing⟩
  exact missing (loaded there)

theorem of_dropVecToolsIdx (ok : (dropVecToolsIdx db).1 = .ok ()) :
    db.vecToolsIdx → db.vec0 := by
  intro there
  unfold dropVecToolsIdx at ok
  by_contra missing
  rw [if_pos ⟨there, missing⟩] at ok
  cases ok

theorem of_dropVecToolsL2Idx (ok : (dropVecToolsL2Idx db).1 = .ok ()) :
    db.vecToolsL2Idx → db.vec0 := by
  intro there
  unfold dropVecToolsL2Idx at ok
  by_contra missing
  rw [if_pos ⟨there, missing⟩] at ok
  cases ok

/-- The database when the rows are copied and the old table is replaced. -/
def replaced (db : Database) (table : SqlTable Column) : Database :=
  { db with
    tools := some (table.remap schemaColumns rebuiltCell)
    toolsNew := none
    lineageIndex := false }

/-- Creating, filling and renaming the new table, as one statement. -/
theorem rebuildTools_replaced (new : db.toolsNew = none)
    (copied : ∀ column ∈ copiedColumns, column ∈ table.columns)
    (insertable : Insertable table.rows) :
    rebuildTools table db =
      (dropVecToolsIdx.andThen (dropVecToolsL2Idx.andThen dropVecTools)) (replaced db table) := by
  unfold rebuildTools
  rw [Script.andThen_of_ok (createToolsNew_eq new),
    Script.andThen_of_ok (insertToolsNew_eq copied insertable)]
  exact Script.andThen_of_ok rfl

theorem rebuildTools_eq (new : db.toolsNew = none) (rebuilds : Rebuilds db table) :
    rebuildTools table db = (.ok (), rebuilt db table) := by
  obtain ⟨copied, insertable, idx, l2Idx⟩ := rebuilds
  have first : dropVecToolsIdx (replaced db table) =
      (.ok (), { replaced db table with vecToolsIdx := false }) := dropVecToolsIdx_eq idx
  have second : dropVecToolsL2Idx { replaced db table with vecToolsIdx := false } =
      (.ok (), { replaced db table with vecToolsIdx := false, vecToolsL2Idx := false }) :=
    dropVecToolsL2Idx_eq l2Idx
  rw [rebuildTools_replaced new copied insertable, Script.andThen_of_ok first,
    Script.andThen_of_ok second]
  rfl

theorem rebuilds_of_ok (new : db.toolsNew = none) (ok : (rebuildTools table db).1 = .ok ()) :
    Rebuilds db table := by
  have inserted := ok
  unfold rebuildTools at inserted
  rw [Script.andThen_of_ok (createToolsNew_eq new), Script.andThen_ok_iff] at inserted
  obtain ⟨copied, insertable⟩ := of_insertToolsNew inserted.1
  rw [rebuildTools_replaced new copied insertable, Script.andThen_ok_iff] at ok
  obtain ⟨first, second⟩ := ok
  have idx := of_dropVecToolsIdx first
  rw [dropVecToolsIdx_eq idx] at second
  have l2Idx := of_dropVecToolsL2Idx (Script.andThen_ok_iff.mp second).1
  exact ⟨copied, insertable, idx, l2Idx⟩

/-- The migration of a table without `id`, as far as the rebuilding succeeds. -/
theorem migrateSchema_of_no_id (tools : db.tools = some table) (nonempty : table.columns ≠ [])
    (noId : .id ∉ table.columns) :
    migrateSchema db = ((rebuildTools table).andThen upgrade) db := by
  unfold migrateSchema
  rw [tools]
  dsimp only
  rw [if_neg nonempty, if_neg noId]

theorem migrateSchema_of_rebuilds (tools : db.tools = some table)
    (nonempty : table.columns ≠ []) (noId : .id ∉ table.columns) (new : db.toolsNew = none)
    (old : db.vecToolsOld = none) (rebuilds : Rebuilds db table) :
    migrateSchema db =
      (.ok (), upgraded (rebuilt db table) (table.remap schemaColumns rebuiltCell)) := by
  rw [migrateSchema_of_no_id tools nonempty noId,
    Script.andThen_of_ok (rebuildTools_eq new rebuilds)]
  have required : ∀ column ∈ requiredColumns, column ∈ schemaColumns := by decide
  exact upgrade_eq rfl required old fun vec isVec => nomatch isVec

/-! ## The rows of a rebuilt table -/

section Rows

variable {row : OldRow}

theorem rebuiltCell_defaulted {column : Column} (member : column ∈ defaultedColumns) :
    rebuiltCell row column = row.cell column ↔ row.cell column ≠ .null := by
  simp only [defaultedColumns, List.mem_cons, List.not_mem_nil, or_false] at member
  rcases member with rfl | rfl | rfl | rfl | rfl | rfl | rfl <;>
    exact Cell.coalesce_eq_self_iff (by decide)

theorem rebuiltCell_stage (set : row.cell .stage ≠ .null) :
    rebuiltCell row .stage = row.cell .stage := if_neg set

theorem rebuiltCell_stage_of_null (unset : row.cell .stage = .null) :
    rebuiltCell row .stage = stageCase (row.cell .version) := if_pos unset

/-- The other columns are copied. -/
theorem rebuiltCell_copied {column : Column} (known : column ∈ copiedColumns)
    (notDefaulted : column ∉ defaultedColumns) (notLineage : column ≠ .lineageId)
    (notStage : column ≠ .stage) : rebuiltCell row column = row.cell column := by
  cases column with
  | id => exact absurd known (by decide)
  | riskLevel | requiredPermissions | summaryL2 | branch | isHead | diffPatch | origin =>
      exact absurd (by decide) notDefaulted
  | lineageId => exact absurd rfl notLineage
  | stage => exact absurd rfl notStage
  | _ => rfl

/-- The row that a rebuilt table has for an old row. -/
def rebuiltRow (row : OldRow) : OldRow :=
  ⟨row.rowid, backfilledCell ⟨row.rowid, rebuiltCell row⟩⟩

theorem rebuiltRow_cell_of_ne {column : Column} (other : column ≠ .lineageId) :
    (rebuiltRow row).cell column = rebuiltCell row column := by
  unfold rebuiltRow backfilledCell
  dsimp only
  split
  · exact Function.update_of_ne other _ _
  · rfl

theorem rebuiltRow_lineage : (rebuiltRow row).cell .lineageId =
    if Blank (row.cell .lineageId) then row.cell .toolName else row.cell .lineageId := by
  have rebuilt : rebuiltCell row .lineageId =
      (row.cell .lineageId).coalesce (row.cell .toolName) := rfl
  unfold rebuiltRow backfilledCell
  dsimp only
  by_cases isNull : row.cell .lineageId = .null
  · rw [isNull, Cell.coalesce_null] at rebuilt
    have named : (if Blank (row.cell .lineageId) then row.cell .toolName
        else row.cell .lineageId) = row.cell .toolName := if_pos (.inr isNull)
    rw [named]
    split
    · exact Function.update_self _ _ _
    · exact rebuilt
  · have copied : rebuiltCell row .lineageId = row.cell .lineageId := if_neg isNull
    by_cases blank : Blank (row.cell .lineageId)
    · rw [if_pos blank, if_pos (copied.symm ▸ blank), Function.update_self]
      rfl
    · rw [if_neg blank, if_neg (copied.symm ▸ blank), copied]

/-- Rebuilding does what is claimed to a row that had a value in every column. -/
theorem rowUpgraded_rebuilt_iff {columns : List Column}
    (copied : ∀ column ∈ copiedColumns, column ∈ columns)
    (known : ∀ column ∈ columns, column ∈ copiedColumns) :
    RowUpgraded columns row (rebuiltRow row) ↔
      (Blank (row.cell .lineageId) → ¬ Blank (row.cell .toolName)) ∧
        (row.cell .stage = .null → SameStage (row.cell .version)) ∧
          ∀ column ∈ defaultedColumns, row.cell column ≠ .null := by
  have lineage : ¬ Blank ((rebuiltRow row).cell .lineageId) ↔
      (Blank (row.cell .lineageId) → ¬ Blank (row.cell .toolName)) := by
    rw [rebuiltRow_lineage]
    split
    · rename_i blank
      exact ⟨fun named _ => named, fun named => named blank⟩
    · rename_i set
      exact iff_of_true set fun blank => absurd blank set
  have stage : (rebuiltRow row).cell .stage = rebuiltCell row .stage :=
    rebuiltRow_cell_of_ne (by decide)
  constructor
  · intro law
    refine ⟨lineage.mp law.lineage, fun unset => ?_, fun column member => ?_⟩
    · rw [rebuiltCell_stage_of_null unset] at stage
      rw [← stageCase_eq_iff, ← stage]
      refine law.stage (.inr ?_)
      rw [stage, unset]
      unfold stageCase
      split <;> exact Cell.noConfusion
    · rw [← rebuiltCell_defaulted member]
      have others : column ≠ .lineageId ∧ column ≠ .stage ∧ column ∈ copiedColumns := by
        revert column
        decide
      obtain ⟨notLineage, notStage, isCopied⟩ := others
      rcases law.kept column (copied column isCopied) with same | ⟨isLineage, _⟩ | ⟨isStage, _⟩
      · rwa [rebuiltRow_cell_of_ne notLineage] at same
      · exact absurd isLineage notLineage
      · exact absurd isStage notStage
  · rintro ⟨named, staged, full⟩
    refine ⟨rfl, fun column here => ?_, lineage.mpr named, fun fills => ?_⟩
    · by_cases isLineage : column = .lineageId
      · subst isLineage
        by_cases blank : Blank (row.cell .lineageId)
        · exact .inr (.inl ⟨rfl, blank⟩)
        · left
          rw [rebuiltRow_lineage, if_neg blank]
      rw [rebuiltRow_cell_of_ne isLineage]
      by_cases isStage : column = .stage
      · subst isStage
        by_cases unset : row.cell .stage = .null
        · exact .inr (.inr ⟨rfl, unset⟩)
        · exact .inl (rebuiltCell_stage unset)
      by_cases defaulted : column ∈ defaultedColumns
      · exact .inl ((rebuiltCell_defaulted defaulted).mpr (full column defaulted))
      · exact .inl (rebuiltCell_copied (known column here) defaulted isLineage isStage)
    · have unset : row.cell .stage = .null := by
        rcases fills with absent | changed
        · exact absurd (copied .stage (by decide)) absent
        · by_contra set
          exact changed (stage.trans (rebuiltCell_stage set))
      rw [stage, rebuiltCell_stage_of_null unset]
      exact (stageCase_eq_iff _).mpr (staged unset)

end Rows

/-! ## Which databases are migrated -/

/-- What a table without `id` needs. -/
structure Rebuildable (db : Database) (old : SqlTable Column) : Prop extends Rebuilds db old where
  known : ∀ column ∈ old.columns, column ∈ copiedColumns
  full : ∀ row ∈ old.rows, ∀ column ∈ defaultedColumns, row.cell column ≠ .null

/-- The databases for which the migration does what is claimed. -/
structure Migratable (db : Database) (old : SqlTable Column) : Prop where
  named : ∀ row ∈ old.rows, .lineageId ∉ old.columns ∨ Blank (row.cell .lineageId) →
    ¬ Blank (row.cell .toolName)
  staged : ∀ row ∈ old.rows,
    .stage ∉ old.columns ∨ .id ∉ old.columns ∧ row.cell .stage = .null →
      SameStage (row.cell .version)
  levels : .id ∈ old.columns → ∀ vec, db.vecTools = some vec → VecReady vec
  rebuilds : .id ∉ old.columns → Rebuildable db old

theorem forall₂_remap {columns columns' : List Column} {change : OldRow → Column → Cell} :
    List.Forall₂ (RowUpgraded columns) table.rows (table.remap columns' change).rows ↔
      ∀ row ∈ table.rows, RowUpgraded columns row ⟨row.rowid, change row⟩ := by
  change List.Forall₂ _ table.rows (table.rows.map _) ↔ _
  rw [List.forall₂_map_right_iff, List.forall₂_same]

end Rebuild

section Migrates

variable {db : Database} {old : SqlTable Column}

/-- Where there is an `id`, columns are added. -/
theorem migrates_iff_of_id (legacy : Legacy db old) (id : .id ∈ old.columns) :
    Migrates db old ↔ (∀ vec, db.vecTools = some vec → VecReady vec) ∧
      ∀ row ∈ old.rows, RowUpgraded old.columns row
        ⟨row.rowid, upgradedCell old.columns row⟩ := by
  have run := migrateSchema_of_id legacy.tools id
  constructor
  · intro law
    have ready : ∀ vec, db.vecTools = some vec → VecReady vec := fun vec isVec =>
      vecReady_of_upgrade legacy.tools (legacy.required .version (by decide))
        (run ▸ law.succeeds) isVec
    rw [upgrade_eq legacy.tools legacy.required legacy.vecToolsOld ready] at run
    obtain ⟨new, isNew, _, rows⟩ := law.upgraded
    rw [run] at isNew
    obtain rfl := Option.some.inj isNew
    exact ⟨ready, forall₂_remap.mp rows⟩
  · rintro ⟨ready, rows⟩
    rw [upgrade_eq legacy.tools legacy.required legacy.vecToolsOld ready] at run
    refine ⟨by rw [run], ⟨upgradedTable old, by rw [run]; rfl, ?_, forall₂_remap.mpr rows⟩, ?_, ?_⟩
    · exact fun column here => mem_upgradedColumns here
    · rw [run]
      exact ⟨legacy.toolsNew, legacy.vecToolsOld⟩
    · rw [run]
      exact upgraded_again legacy.required id legacy.vecToolsOld fun row member =>
        (rows row member).lineage

/-- Where there is none, the table is rebuilt. -/
theorem migrates_iff_of_no_id (legacy : Legacy db old) (noId : .id ∉ old.columns) :
    Migrates db old ↔ Rebuilds db old ∧ (∀ column ∈ old.columns, column ∈ copiedColumns) ∧
      ∀ row ∈ old.rows, RowUpgraded old.columns row (rebuiltRow row) := by
  have nonempty : old.columns ≠ [] :=
    List.ne_nil_of_mem (legacy.required .version (by decide))
  have table : upgradedTable (old.remap schemaColumns rebuiltCell) =
      old.remap schemaColumns fun row => (rebuiltRow row).cell := by
    have complete : ∀ column ∈ migrations.map Prod.fst, column ∈ schemaColumns := by decide
    unfold upgradedTable
    rw [SqlTable.remap_columns, upgradedColumns_of_complete complete, SqlTable.remap_remap,
      funext (upgradedCell_of_complete complete)]
    rfl
  have run (rebuilds : Rebuilds db old) := migrateSchema_of_rebuilds legacy.tools nonempty noId
    legacy.toolsNew legacy.vecToolsOld rebuilds
  constructor
  · intro law
    have succeeds := law.succeeds
    rw [migrateSchema_of_no_id legacy.tools nonempty noId, Script.andThen_ok_iff] at succeeds
    have rebuilds := rebuilds_of_ok legacy.toolsNew succeeds.1
    obtain ⟨new, isNew, columns, rows⟩ := law.upgraded
    rw [run rebuilds] at isNew
    obtain rfl := Option.some.inj isNew
    rw [table] at columns rows
    refine ⟨rebuilds, fun column here => ?_, forall₂_remap.mp rows⟩
    exact (List.mem_cons.mp (columns column here)).resolve_left fun isId => noId (isId ▸ here)
  · rintro ⟨rebuilds, known, rows⟩
    have isRun := run rebuilds
    have isTable : (upgraded (rebuilt db old) (old.remap schemaColumns rebuiltCell)).tools =
        some (old.remap schemaColumns fun row => (rebuiltRow row).cell) := congrArg some table
    refine ⟨by rw [isRun], ⟨_, by rw [isRun]; exact isTable, ?_, forall₂_remap.mpr rows⟩, ?_, ?_⟩
    · exact fun column here => List.mem_cons_of_mem _ (known column here)
    · rw [isRun]
      exact ⟨rfl, legacy.vecToolsOld⟩
    · rw [isRun]
      have required : ∀ column ∈ requiredColumns, column ∈ schemaColumns := by decide
      refine upgraded_again required List.mem_cons_self legacy.vecToolsOld fun row member => ?_
      obtain ⟨source, isSource, rfl⟩ := List.mem_map.mp member
      have complete : ∀ column ∈ migrations.map Prod.fst, column ∈ schemaColumns := by decide
      rw [SqlTable.remap_columns, upgradedCell_of_complete complete]
      exact (rows source isSource).lineage

/--
The migration of an old database does what is claimed exactly if the names and the
versions of its rows are usual and nothing but `id` is missing where `id` is.
-/
theorem migrates_iff_migratable (legacy : Legacy db old) :
    Migrates db old ↔ Migratable db old := by
  by_cases id : Column.id ∈ old.columns
  · rw [migrates_iff_of_id legacy id]
    constructor
    · rintro ⟨ready, rows⟩
      refine ⟨fun row member => (rowUpgraded_iff.mp (rows row member)).1,
        fun row member unset => ?_, fun _ => ready, fun noId => absurd id noId⟩
      refine (rowUpgraded_iff.mp (rows row member)).2 ?_
      rcases unset with absent | ⟨noId, _⟩
      · exact absent
      · exact absurd id noId
    · intro migratable
      refine ⟨migratable.levels id, fun row member => rowUpgraded_iff.mpr ⟨?_, fun absent => ?_⟩⟩
      · exact migratable.named row member
      · exact migratable.staged row member (.inl absent)
  · rw [migrates_iff_of_no_id legacy id]
    constructor
    · rintro ⟨rebuilds, known, rows⟩
      have lineage := rebuilds.copied .lineageId (by decide)
      have stage := rebuilds.copied .stage (by decide)
      have laws (row : OldRow) (member : row ∈ old.rows) :=
        (rowUpgraded_rebuilt_iff rebuilds.copied known).mp (rows row member)
      refine ⟨fun row member blank => (laws row member).1 ?_, fun row member unset =>
        (laws row member).2.1 ?_, fun isId => absurd isId id,
        fun _ => ⟨rebuilds, known, fun row member => (laws row member).2.2⟩⟩
      · exact blank.resolve_left fun absent => absent lineage
      · exact (unset.resolve_left fun absent => absent stage).2
    · intro migratable
      obtain ⟨rebuilds, known, full⟩ := migratable.rebuilds id
      refine ⟨rebuilds, known, fun row member =>
        (rowUpgraded_rebuilt_iff rebuilds.copied known).mpr ⟨fun blank => ?_, fun unset => ?_, ?_⟩⟩
      · exact migratable.named row member (.inr blank)
      · exact migratable.staged row member (.inr ⟨id, unset⟩)
      · exact full row member

end Migrates

/-- The columns of the first schema, but for `id`. -/
def firstColumns : List Column :=
  [.toolId, .toolName, .version, .parentVersionId, .providerId, .summary, .definitionJson,
    .handlerModule, .language, .runtime, .essential, .createdAt, .updatedAt]

def legacyRow : OldRow where
  rowid := 1
  cell
    | .id => .integer 1
    | .toolId => .text "legacy@0.0.1"
    | .toolName => .text "legacy"
    | .version => .text "0.0.1"
    | .definitionJson => .text "{}"
    | .language => .text "python"
    | .runtime => .text "python"
    | .createdAt => .text "2024-01-01"
    | .updatedAt => .text "2024-01-01"
    | _ => .null

/-- A table with one tool. -/
def legacyTable (columns : List Column) : SqlTable Column :=
  ⟨columns, [legacyRow], List.nodup_singleton _⟩

def legacyDatabase (columns : List Column) : Database where
  tools := some (legacyTable columns)
  toolsNew := none
  vecTools := none
  vecToolsOld := none
  vecToolsIdx := false
  vecToolsL2Idx := false
  vec0 := false
  lineageIndex := false

/-- A table with `id` gets the nine columns that it lacks. -/
theorem migrates_iff_migratable_withId :
    Migrates (legacyDatabase (.id :: firstColumns)) (legacyTable (.id :: firstColumns)) :=
  (migrates_iff_migratable ⟨rfl, by decide, rfl, rfl⟩).mpr
    ⟨by decide, by decide, fun _ => nofun, fun noId => absurd List.mem_cons_self noId⟩

/-- Without `id`, the copying fails on `risk_level` and leaves `tools_new` behind. -/
theorem not_migrates_withoutId :
    Legacy (legacyDatabase firstColumns) (legacyTable firstColumns) ∧
      ¬ Migrates (legacyDatabase firstColumns) (legacyTable firstColumns) := by
  refine ⟨⟨rfl, by decide, rfl, rfl⟩, fun law => ?_⟩
  exact absurd law.noTemporary.1 (by decide)

end YouMi.Mcp.ToolStore
