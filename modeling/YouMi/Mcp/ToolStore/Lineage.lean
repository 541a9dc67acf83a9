import YouMi.Library.ParentLinks
import YouMi.Mcp.ToolStore.WellFormed

/-!
# Parent links in the store

Every call that inserts a row takes as its parent a row that is there, so links
only break when a deletion removes a row and leaves one of its children.
-/

namespace YouMi.Mcp.ToolStore

open YouMi.Core YouMi.Library

variable {V : Type}

/-- Each row's identifier with its `parent_version_id`. -/
def links (rows : List ToolRow) : ParentLinks String :=
  rows.map fun row => (row.toolId, row.parentVersionId)

/-- Parents exist, belong to the same tool, and lead to a root. -/
structure LineageSound (rows : List ToolRow) : Prop where
  sameTool : ∀ row ∈ rows, ∀ parentId, row.parentVersionId = some parentId →
    ∃ parent ∈ rows, parent.toolId = parentId ∧ parent.toolName = row.toolName
  rooted : ∀ row ∈ rows, (links rows).ReachesRoot row.toolId

section Links

variable {rows : List ToolRow}

theorem mem_links {toolId : String} {up : Option String} :
    (toolId, up) ∈ links rows ↔ ∃ row ∈ rows, row.toolId = toolId ∧ row.parentVersionId = up := by
  simp [links]

theorem present_links {toolId : String} :
    (links rows).Present toolId ↔ ∃ row ∈ rows, row.toolId = toolId := by
  constructor
  · rintro ⟨up, member⟩
    obtain ⟨row, hrow, same, _⟩ := mem_links.mp member
    exact ⟨row, hrow, same⟩
  · rintro ⟨row, hrow, same⟩
    exact ⟨row.parentVersionId, mem_links.mpr ⟨row, hrow, same, rfl⟩⟩

theorem links_namesUnique (table : ToolTable) : (links table.rows).NamesUnique := by
  have apart : (table.rows.map ToolRow.toolId).Nodup := List.pairwise_map.mpr table.unique
  rw [ParentLinks.NamesUnique, links, List.map_map]
  exact apart

theorem KeepsPlace.links {change : ToolRow → ToolRow} (keeps : KeepsPlace change) :
    links (rows.map change) = ToolStore.links rows := by
  rw [ToolStore.links, List.map_map]
  apply List.map_congr_left
  intro row _
  simp only [Function.comp_apply, keeps.toolId, keeps.parentVersionId]

theorem LineageSound.sound (lineage : LineageSound rows) : (links rows).Sound where
  present := by
    intro child parent link
    obtain ⟨row, hrow, _, up⟩ := mem_links.mp link
    obtain ⟨above, habove, same, _⟩ := lineage.sameTool row hrow parent up
    exact present_links.mpr ⟨above, habove, same⟩
  rooted := by
    intro name here
    obtain ⟨row, hrow, rfl⟩ := present_links.mp here
    exact lineage.rooted row hrow

/-- No row is its own ancestor. -/
theorem LineageSound.acyclic {table : ToolTable} (lineage : LineageSound table.rows)
    (toolId : String) : ¬ Relation.TransGen (links table.rows).Follows toolId toolId :=
  lineage.sound.acyclic (links_namesUnique table) toolId

end Links

/-! ## What a call does to the links -/

/-- The row has no parent, or one of its tool that is there. -/
def ParentIn (rows : List ToolRow) (row : ToolRow) : Prop :=
  ∀ parentId, row.parentVersionId = some parentId →
    ∃ parent ∈ rows, parent.toolId = parentId ∧ parent.toolName = row.toolName

theorem Makes.parentIn {env : Env V} {rows : List ToolRow} {call : Call V} {row : ToolRow}
    (made : Makes env rows call row) : ParentIn rows row := by
  cases made with
  | @upsert entry =>
      intro parentId up
      dsimp only [upsertRow] at up ⊢
      split at up
      · rename_i head found
        obtain ⟨member, on, _⟩ := flaggedHead_mem found
        exact ⟨head, member, Option.some.inj up, on.1⟩
      · obtain ⟨above, found, rfl⟩ := Option.map_eq_some_iff.mp up
        obtain ⟨member, name⟩ := newestOfTool_mem found
        exact ⟨above, member, rfl, name⟩
  | version _ top =>
      obtain ⟨member, on⟩ := newestOn_mem top
      rintro parentId up
      exact ⟨_, member, Option.some.inj up, on.1⟩
  | branch _ _ fork =>
      obtain ⟨member, _⟩ := forkPoint_mem fork
      rintro parentId up
      exact ⟨_, member, Option.some.inj up, rfl⟩
  | promotion _ _ _ flagged =>
      obtain ⟨member, on, _⟩ := flaggedHead_mem flagged
      rintro parentId up
      exact ⟨_, member, Option.some.inj up, on.1⟩

theorem ParentIn.map {rows : List ToolRow} {row : ToolRow} {change : ToolRow → ToolRow}
    (parentIn : ParentIn rows row) (keeps : KeepsPlace change) :
    ParentIn (rows.map change) row := by
  intro parentId up
  obtain ⟨parent, hparent, same, tool⟩ := parentIn parentId up
  refine ⟨change parent, List.mem_map_of_mem hparent, ?_, ?_⟩
  · rw [keeps.toolId, same]
  · rw [keeps.toolName, tool]

theorem LineageSound.map {rows : List ToolRow} {change : ToolRow → ToolRow}
    (lineage : LineageSound rows) (keeps : KeepsPlace change) :
    LineageSound (rows.map change) where
  sameTool := by
    intro row member parentId up
    obtain ⟨old, hold, rfl⟩ := List.mem_map.mp member
    rw [keeps.parentVersionId] at up
    rw [keeps.toolName]
    exact ParentIn.map (lineage.sameTool old hold) keeps parentId up
  rooted := by
    intro row member
    obtain ⟨old, hold, rfl⟩ := List.mem_map.mp member
    rw [keeps.links, keeps.toolId]
    exact lineage.rooted old hold

theorem LineageSound.append {rows : List ToolRow} {row : ToolRow} (lineage : LineageSound rows)
    (parentIn : ParentIn rows row) : LineageSound (rows ++ [row]) where
  sameTool := by
    intro other member parentId up
    have above : ParentIn rows other := by
      rcases List.mem_append.mp member with old | new
      · exact lineage.sameTool other old
      · rw [List.mem_singleton.mp new]
        exact parentIn
    obtain ⟨parent, hparent, same⟩ := above parentId up
    exact ⟨parent, List.mem_append_left _ hparent, same⟩
  rooted := by
    have sound : (links (rows ++ [row])).Sound := by
      rw [links, List.map_append]
      refine lineage.sound.append row.toolId row.parentVersionId fun parentId up => ?_
      obtain ⟨parent, hparent, same, _⟩ := parentIn parentId up
      exact present_links.mpr ⟨parent, hparent, same⟩
    exact fun other member => sound.rooted _ (present_links.mpr ⟨other, member, rfl⟩)

/-- No row that stays has a parent that goes. -/
def DeletesNoParent (rows : List ToolRow) (toolName version : String) : Prop :=
  ∀ row ∈ rows, Stays toolName version row →
    ∀ parent ∈ rows, row.parentVersionId = some parent.toolId → Stays toolName version parent

theorem lineageSound_delete_iff {table : ToolTable} (lineage : LineageSound table.rows)
    (toolName version : String) :
    LineageSound (table.rows.filter fun row => !selects toolName version row) ↔
      DeletesNoParent table.rows toolName version := by
  constructor
  · intro still row member stays parent hparent up
    obtain ⟨above, habove, same, _⟩ := still.sameTool row (mem_deleted_iff.mpr ⟨member, stays⟩) _ up
    rw [mem_deleted_iff] at habove
    rw [← RowTable.eq_of_uniqueKey habove.1 hparent same]
    exact habove.2
  · intro noParent
    have sameTool : ∀ row ∈ table.rows.filter (fun row => !selects toolName version row),
        ParentIn (table.rows.filter fun row => !selects toolName version row) row := by
      intro row member parentId up
      obtain ⟨hrow, stays⟩ := mem_deleted_iff.mp member
      obtain ⟨parent, hparent, rfl, tool⟩ := lineage.sameTool row hrow parentId up
      exact ⟨parent, mem_deleted_iff.mpr ⟨hparent, noParent row hrow stays parent hparent up⟩, rfl, tool⟩
    have sub : ∀ link ∈ links (table.rows.filter fun row => !selects toolName version row),
        link ∈ links table.rows := by
      rintro ⟨toolId, up⟩ link
      obtain ⟨row, member, here⟩ := mem_links.mp link
      exact mem_links.mpr ⟨row, (mem_deleted_iff.mp member).1, here⟩
    have sound := (lineage.sound.restrict_iff (links_namesUnique table) sub).mpr (by
      intro child parent link
      obtain ⟨row, member, _, up⟩ := mem_links.mp link
      obtain ⟨above, habove, same, _⟩ := sameTool row member parent up
      exact present_links.mpr ⟨above, habove, same⟩)
    exact ⟨sameTool, fun row member => sound.rooted _ (present_links.mpr ⟨row, member, rfl⟩)⟩

/-! ## Runs -/

/-- A deletion leaves no child of a row that it removes. -/
def KeepsParents (s : StoreState V) (action : Env V × Call V) : Prop :=
  match action.2 with
  | .deleteTool toolName version => DeletesNoParent s.tools.rows toolName version
  | _ => True

theorem LineageSound.after {env : Env V} {s : StoreState V} {next : List ToolRow} {call : Call V}
    (lineage : LineageSound s.tools.rows) (after : RowsAfter env s call next)
    (notDelete : ∀ toolName version, call ≠ .deleteTool toolName version) :
    LineageSound next := by
  cases after with
  | same => exact lineage
  | @insert _ row new _ =>
      have keeps := makeRoom_keepsPlace (stored s.tools row)
      have parentIn : ParentIn s.tools.rows (stored s.tools row) :=
        (makes_of_newRow new).1.parentIn
      exact (lineage.map keeps).append (parentIn.map keeps)
  | reupsert => exact lineage.map (reupsert_keepsPlace _)
  | delete => exact absurd rfl (notDelete _ _)

theorem lineageSound_step_iff (s : StoreState V) (action : Env V × Call V)
    (lineage : LineageSound s.tools.rows) :
    LineageSound (step s action).tools.rows ↔ KeepsParents s action := by
  obtain ⟨env, call⟩ := action
  have other (notDelete : ∀ toolName version, call ≠ .deleteTool toolName version) :
      LineageSound (step s (env, call)).tools.rows := by
    refine LineageSound.after ?_ (step_rows s (env, call)) notDelete
    obtain ⟨change, relabels, rows⟩ := marked_rows s call
    rw [rows]
    exact lineage.map relabels.toKeepsPlace
  cases call with
  | deleteTool toolName version =>
      change LineageSound (deleteTool toolName version s).2.tools.rows ↔ DeletesNoParent _ _ _
      rw [deleteTool_tools_rows, lineageSound_delete_iff lineage]
  | _ => exact iff_of_true (other (by simp)) trivial

/--
In a run from an empty store, all parent links are sound in all states exactly
if no deletion leaves a child of a row that it removes.
-/
theorem lineageSound_throughout_iff (vecExtension : Option (VecExtension V))
    (actions : List (Env V × Call V)) :
    Throughout step (fun s => LineageSound s.tools.rows) (StoreState.empty vecExtension) actions ↔
      StepsMeet step KeepsParents (StoreState.empty vecExtension) actions := by
  refine throughout_iff_stepsMeet (fun _ => True) (fun s => LineageSound s.tools.rows)
    (fun _ _ _ => trivial) (fun s action _ => lineageSound_step_iff s action) trivial ?_ actions
  exact ⟨by simp [StoreState.empty], by simp [StoreState.empty]⟩

/-- After the first version is deleted, the second one names a parent that is not there. -/
def parentDeleted : List (Env Unit × Call Unit) :=
  [(atTime 1, .upsertTool (plainEntry "0.0.1")),
    (atTime 2, .createVersion "tool" (plainDefinition "second") "" "patch" "main" ""),
    (atTime 3, .deleteTool "tool" "0.0.1")]

theorem not_lineageSound_parentDeleted :
    ¬ LineageSound (run step (StoreState.empty none) parentDeleted).tools.rows := by
  intro lineage
  have left : links (run step (StoreState.empty none) parentDeleted).tools.rows =
      [("tool@0.0.2", some "tool@0.0.1")] := by rfl
  have sound := lineage.sound
  rw [left] at sound
  obtain ⟨up, member⟩ := sound.present "tool@0.0.2" "tool@0.0.1" (by simp)
  simp at member

end YouMi.Mcp.ToolStore
