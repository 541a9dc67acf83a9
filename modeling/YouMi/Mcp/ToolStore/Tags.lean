import YouMi.Mcp.ToolStore.Search

/-!
# Tags

`add_tag` puts a tag on the newest row of a tool, on whatever branch that is, and
no operation passes the tags of a row on to another.  So a tag boundary admits the
head of `main` only for as long as the tagged row is that head.
-/

namespace YouMi.Mcp.ToolStore

open YouMi.Core YouMi.Library

variable {V : Type}

/-! ## What the operations do to tags -/

theorem writeVec_toolTags {level : VecLevel} {rowId : Nat} {toolId toolName : String}
    {embedding : V} {s written : StoreState V}
    (done : writeVec level rowId toolId toolName embedding s = some written) :
    written.toolTags = s.toolTags := by
  unfold writeVec at done
  split at done
  · split at done
    · split at done <;> cases done <;> rfl
    · cases done
  · split at done <;> cases done <;> rfl

theorem undisturbed_toolTags (toolTags : List (String × String)) :
    Undisturbed fun s : StoreState V => s.toolTags = toolTags where
  tools := fun _ same => same
  changelogs := fun _ same => same
  vector := fun done same => (writeVec_toolTags done).trans same

/-- The calls that write the tags table. -/
inductive WritesTags : Call V → Prop
  | deleteTool {toolName version} : WritesTags (.deleteTool toolName version)
  | addTag {toolName tag} : WritesTags (.addTag toolName tag)

/-- No operation but tagging and deleting touches the tags; new rows come without any. -/
theorem step_toolTags (s : StoreState V) (action : Env V × Call V)
    (other : ¬ WritesTags action.2) : (step s action).toolTags = s.toolTags := by
  apply (undisturbed_toolTags s.toolTags).step rfl
  · intro toolName version deletes
    exact absurd (deletes ▸ .deleteTool) other
  · intro toolName tag tags
    exact absurd (tags ▸ .addTag) other

theorem deleteTool_toolTags_subset (toolName version : String) (s : StoreState V) :
    (deleteTool toolName version s).2.toolTags ⊆ s.toolTags := by
  unfold deleteTool
  dsimp only
  split
  · exact List.Subset.refl _
  · exact List.filter_subset_self _

/-- The tags of the rows that stay are kept. -/
theorem mem_toolTags_deleteTool {toolName version tag : String} {s : StoreState V} {row : ToolRow}
    (stays : row ∈ (deleteTool toolName version s).2.tools.rows)
    (tagged : (row.toolId, tag) ∈ s.toolTags) :
    (row.toolId, tag) ∈ (deleteTool toolName version s).2.toolTags := by
  rw [deleteTool_tools_rows, List.mem_filter] at stays
  unfold deleteTool
  dsimp only
  split
  · exact tagged
  · refine List.mem_filter.mpr ⟨tagged, ?_⟩
    rw [Bool.not_eq_true', List.any_eq_false]
    intro other member same
    rw [decide_eq_true_eq] at same
    have found := List.mem_filter.mp member
    have equal : other = row := RowTable.eq_of_uniqueKey found.1 stays.1 same
    rw [equal] at found
    simp [found.2] at stays

theorem mem_toolTags_addTag {toolName tag : String} {s : StoreState V} {entry : String × String} :
    entry ∈ (addTag toolName tag s).toolTags ↔
      entry ∈ s.toolTags ∨
        ∃ row, newestOfTool s.tools.rows toolName = some row ∧ entry = (row.toolId, tag) := by
  unfold addTag
  split
  · rename_i absent
    simp [absent]
  · rename_i row found
    split
    · rename_i already
      constructor
      · exact .inl
      · rintro (here | ⟨other, isOther, rfl⟩)
        · exact here
        · rw [found] at isOther
          cases isOther
          exact already
    · change entry ∈ s.toolTags ++ [_] ↔ _
      rw [List.mem_append, List.mem_singleton, found]
      simp

/-- A row that is there after a call keeps the tags it had. -/
theorem mem_toolTags_step {s : StoreState V} {action : Env V × Call V} {row : ToolRow}
    {tag : String} (stays : row ∈ (step s action).tools.rows)
    (tagged : (row.toolId, tag) ∈ s.toolTags) :
    (row.toolId, tag) ∈ (step s action).toolTags := by
  by_cases writes : WritesTags action.2
  · obtain ⟨env, call⟩ := action
    cases writes with
    | deleteTool => exact mem_toolTags_deleteTool stays tagged
    | addTag => exact mem_toolTags_addTag.mpr (.inl tagged)
  · rw [step_toolTags s action writes]
    exact tagged

/-! ## Tags and rows -/

/-- Every tag is that of a row. -/
def TagsKnown (s : StoreState V) : Prop :=
  ∀ entry ∈ s.toolTags, ∃ row ∈ s.tools.rows, row.toolId = entry.1

theorem RowsAfter.toolId_stays {env : Env V} {s : StoreState V} {call : Call V}
    {next : List ToolRow} (after : RowsAfter env s call next)
    (noDelete : ∀ toolName version, call ≠ .deleteTool toolName version) {old : ToolRow}
    (member : old ∈ s.tools.rows) : ∃ row ∈ next, row.toolId = old.toolId := by
  cases after with
  | same => exact ⟨old, member, rfl⟩
  | insert =>
      exact ⟨_, List.mem_append_left _ (List.mem_map_of_mem member),
        (makeRoom_keepsPlace _).toolId old⟩
  | reupsert => exact ⟨_, List.mem_map_of_mem member, (reupsert_keepsPlace _).toolId old⟩
  | delete => exact absurd rfl (noDelete _ _)

theorem toolId_stays {s : StoreState V} {action : Env V × Call V}
    (noDelete : ∀ toolName version, action.2 ≠ .deleteTool toolName version) {old : ToolRow}
    (member : old ∈ s.tools.rows) :
    ∃ row ∈ (step s action).tools.rows, row.toolId = old.toolId := by
  obtain ⟨change, relabels, rows⟩ := marked_rows s action.2
  have there : change old ∈ (marked s action.2).tools.rows := by
    rw [rows]
    exact List.mem_map_of_mem member
  obtain ⟨row, here, same⟩ := (step_rows s action).toolId_stays noDelete there
  exact ⟨row, here, same.trans (relabels.toKeepsPlace.toolId old)⟩

theorem TagsKnown.deleteTool {s : StoreState V} (known : TagsKnown s) (toolName version : String) :
    TagsKnown (deleteTool toolName version s).2 := by
  intro entry member
  obtain ⟨row, here, same⟩ := known entry (deleteTool_toolTags_subset _ _ _ member)
  refine ⟨row, ?_, same⟩
  rw [deleteTool_tools_rows]
  unfold ToolStore.deleteTool at member
  dsimp only at member
  split at member
  · rename_i nothing
    have free := List.filter_eq_nil_iff.mp nothing.2 row here
    exact List.mem_filter.mpr ⟨here, by simpa using free⟩
  · refine List.mem_filter.mpr ⟨here, ?_⟩
    have left := (List.mem_filter.mp member).2
    rw [Bool.not_eq_true', List.any_eq_false] at left
    by_contra selected
    refine left row (List.mem_filter.mpr ⟨here, by simpa using selected⟩) ?_
    rw [decide_eq_true_eq]
    exact same

theorem TagsKnown.addTag {s : StoreState V} (known : TagsKnown s) (toolName tag : String) :
    TagsKnown (addTag toolName tag s) := by
  intro entry member
  rw [addTag_tools]
  rcases mem_toolTags_addTag.mp member with old | ⟨row, found, rfl⟩
  · exact known entry old
  · exact ⟨row, (newestOfTool_mem found).1, rfl⟩

theorem step_tagsKnown (s : StoreState V) (action : Env V × Call V) (known : TagsKnown s) :
    TagsKnown (step s action) := by
  by_cases writes : WritesTags action.2
  · obtain ⟨env, call⟩ := action
    cases writes with
    | deleteTool => exact known.deleteTool _ _
    | addTag => exact known.addTag _ _
  · have noDelete : ∀ toolName version, action.2 ≠ .deleteTool toolName version := by
      intro toolName version deletes
      rw [deletes] at writes
      exact writes .deleteTool
    intro entry member
    rw [step_toolTags s action writes] at member
    obtain ⟨old, here, same⟩ := known entry member
    obtain ⟨row, there, same'⟩ := toolId_stays noDelete here
    exact ⟨row, there, same'.trans same⟩

theorem ReachableState.tagsKnown {s : StoreState V} (reach : ReachableState s) : TagsKnown s := by
  obtain ⟨vecExtension, run⟩ := reach
  have init : TagsKnown (StoreState.empty vecExtension : StoreState V) :=
    fun entry member => absurd member List.not_mem_nil
  exact Reachable.invariant TagsKnown init step_tagsKnown run

/-! ## The tag boundary -/

/-- The cone whose only boundary is the tag. -/
def tagBoundary (tag : String) : Cone := ⟨[], [], [tag], "critical"⟩

theorem coneWhere_tagBoundary {tag : String} {s : StoreState V} {row : ToolRow} :
    coneWhere (tagBoundary tag) s row ↔ (row.toolId, tag) ∈ s.toolTags := by
  constructor
  · rintro ⟨_, _, _, none | ⟨other, member, tagged⟩⟩
    · cases none
    · rw [List.mem_singleton.mp member] at tagged
      exact tagged
  · intro tagged
    exact ⟨riskRank_le_critical _, List.not_mem_nil, .inr List.not_mem_nil,
      .inr ⟨tag, List.mem_singleton_self tag, tagged⟩⟩

/-- The boundary of the tag admits the tool's head of `main`. -/
def AdmitsHead (toolName tag : String) (s : StoreState V) : Prop :=
  ∀ row ∈ s.tools.rows, row.toolName = toolName → IsMainHead row →
    coneWhere (tagBoundary tag) s row

instance (row : ToolRow) : Decidable (IsMainHead row) := inferInstanceAs (Decidable (_ ∧ _))

instance (toolName tag : String) (s : StoreState V) : Decidable (AdmitsHead toolName tag s) :=
  inferInstanceAs (Decidable (∀ row ∈ s.tools.rows, _ → _ → _))

/-- The call inserts no new head of `main` for the tool. -/
def KeepsMainHead (toolName : String) (s : StoreState V) (action : Env V × Call V) : Prop :=
  ∀ row, insertedRow s action = some row → row.toolName = toolName → ¬ IsMainHead row

/-- The head of `main` has the tag already, or is the newest of all rows of the tool. -/
def TagsHead (toolName tag : String) (s : StoreState V) : Prop :=
  ∀ row ∈ s.tools.rows, row.toolName = toolName → IsMainHead row →
    (row.toolId, tag) ∈ s.toolTags ∨ newestOfTool s.tools.rows toolName = some row

theorem FromOld.isMainHead {old row : ToolRow} (fromOld : FromOld old row) (head : IsMainHead row) :
    old.toolName = row.toolName ∧ IsMainHead old := by
  obtain ⟨name, branch⟩ := (fromOld.on row.toolName row.branch).mp ⟨rfl, rfl⟩
  exact ⟨name, branch.trans head.1, fromOld.isHead head.2⟩

theorem admitsHead_addTag_iff {toolName tag : String} {s : StoreState V} :
    AdmitsHead toolName tag (addTag toolName tag s) ↔ TagsHead toolName tag s := by
  unfold AdmitsHead TagsHead
  rw [addTag_tools]
  refine forall₄_congr fun row member name head => ?_
  rw [coneWhere_tagBoundary, mem_toolTags_addTag]
  refine or_congr_right ⟨?_, fun newest => ⟨row, newest, rfl⟩⟩
  rintro ⟨top, newest, same⟩
  have equal : row = top :=
    RowTable.eq_of_uniqueKey member (newestOfTool_mem newest).1 (Prod.mk.inj same).1
  rw [equal]
  exact newest

/-- A call keeps the head inside of the boundary exactly if it inserts no new head. -/
theorem admitsHead_step_iff {toolName tag : String} {s : StoreState V} (known : TagsKnown s)
    (admits : AdmitsHead toolName tag s) (action : Env V × Call V) :
    AdmitsHead toolName tag (step s action) ↔ KeepsMainHead toolName s action := by
  constructor
  · intro after new isNew name head
    obtain ⟨written, free⟩ := (step_rows s action).written isNew
    have tagged := coneWhere_tagBoundary.mp (after _ written name head)
    have noTag : ¬ WritesTags action.2 := by
      intro writes
      obtain ⟨env, call⟩ := action
      cases writes <;> cases isNew
    rw [step_toolTags s action noTag] at tagged
    obtain ⟨old, here, same⟩ := known _ tagged
    obtain ⟨change, relabels, rows⟩ := marked_rows s action.2
    refine free (change old) ?_ ((relabels.toKeepsPlace.toolId old).trans same)
    rw [rows]
    exact List.mem_map_of_mem here
  · intro keeps row member name head
    rw [coneWhere_tagBoundary]
    rcases fromOld_or_new member with ⟨old, here, fromOld⟩ | ⟨new, isNew, rfl⟩
    · obtain ⟨sameName, oldHead⟩ := fromOld.isMainHead head
      have tagged := coneWhere_tagBoundary.mp (admits old here (sameName.trans name) oldHead)
      rw [← fromOld.toolId] at tagged
      exact mem_toolTags_step member tagged
    · exact absurd head (keeps new isNew name)

/-- A new branch, or a version on it, leaves the head of `main` where it is. -/
theorem keepsMainHead_of_branch {toolName : String} {s : StoreState V} {action : Env V × Call V}
    (offMain : (∃ forked branchName fromVersion,
        action.2 = .createBranch forked branchName fromVersion) ∨
      ∃ committed branch bump changeKind,
        CommitsVersion action.2 committed branch bump changeKind ∧ branch ≠ "main") :
    KeepsMainHead toolName s action := by
  obtain ⟨env, call⟩ := action
  intro row isNew _ head
  have made := (makes_of_newRow isNew).1
  rcases offMain with ⟨forked, branchName, fromVersion, rfl⟩ | ⟨_, _, _, _, commits, notMain⟩
  · cases made with
    | version commits => cases commits
    | branch notMain => exact notMain head.1
    | promotion promotes => cases promotes
  · cases made with
    | upsert => cases commits
    | version committed =>
        cases committed <;> cases commits <;> exact notMain head.1
    | branch => cases commits
    | promotion promotes => cases promotes <;> cases commits

/--
After a tool is tagged, the tag boundary admits its head of `main` exactly as long as
the tag was given to that head and no later call inserts a new one.
-/
theorem admitsHead_throughout_iff (vecExtension : Option (VecExtension V)) (toolName tag : String)
    (earlier later : List (Env V × Call V)) :
    Throughout step (AdmitsHead toolName tag)
        (addTag toolName tag (run step (StoreState.empty vecExtension) earlier)) later ↔
      TagsHead toolName tag (run step (StoreState.empty vecExtension) earlier) ∧
        StepsMeet step (KeepsMainHead toolName)
          (addTag toolName tag (run step (StoreState.empty vecExtension) earlier)) later := by
  have reach := reachableState_run vecExtension earlier
  generalize run step (StoreState.empty vecExtension) earlier = s at reach ⊢
  have known : TagsKnown (addTag toolName tag s) := reach.tagsKnown.addTag toolName tag
  rw [← admitsHead_addTag_iff]
  by_cases first : AdmitsHead toolName tag (addTag toolName tag s)
  · rw [and_iff_right first]
    exact throughout_iff_stepsMeet TagsKnown (AdmitsHead toolName tag) step_tagsKnown
      (fun t action known admits => admitsHead_step_iff known admits action) known first later
  · exact iff_of_false (fun always => first (always 0)) fun both => first both.1

/-- A tool with a version on `main`. -/
def registered : List (Env Unit × Call Unit) := [(atTime 1, .upsertTool (plainEntry "0.0.1"))]

def improved : List (Env Unit × Call Unit) :=
  [(atTime 2, .createVersion "tool" (plainDefinition "second") "" "patch" "main" "")]

theorem not_admitsHead_improved :
    ¬ Throughout step (AdmitsHead "tool" "fs")
      (addTag "tool" "fs" (run step (StoreState.empty none) registered)) improved := by
  intro always
  exact absurd (always 1) (by decide)

end YouMi.Mcp.ToolStore
