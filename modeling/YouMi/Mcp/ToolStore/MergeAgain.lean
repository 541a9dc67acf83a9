import YouMi.Mcp.MergeDefinitions
import YouMi.Mcp.ToolStore.MergeBase

/-!
# Merging a branch again

Commits on the target leave the source branch and the fork point alone, so a
second merge compares the target head with the same two definitions as the first
one.  It neither conflicts nor changes anything exactly if each field of the
source is as in the fork point or as in the target head.
-/

namespace YouMi.Mcp.ToolStore

open YouMi.Core YouMi.Library

variable {V : Type}

/-! ## What a merge does -/

theorem mergedDefinition_clash (toolName : String) {base ours theirs : ToolRow}
    (clash : Clash base.definition ours.definition theirs.definition) :
    ∃ conflicts,
      mergedDefinition toolName base ours theirs = .error (.versionConflict toolName conflicts) := by
  refine ⟨_, if_pos fun clean => ?_⟩
  exact conflicts_dump_eq_nil_iff.mp clean clash

theorem mergedDefinition_clean (toolName : String) {base ours theirs : ToolRow}
    (clean : ¬ Clash base.definition ours.definition theirs.definition) :
    mergedDefinition toolName base ours theirs =
      .ok (fieldwise base.definition ours.definition theirs.definition) := by
  rw [mergedDefinition]
  dsimp only
  rw [if_neg (not_not.mpr (conflicts_dump_eq_nil_iff.mpr clean)), modelValidate_merged clean]

section Merge

variable {s : StoreState V} {toolName source target : String} {base ours theirs : ToolRow}
  (inputs : mergeInputs s.tools.rows toolName source target = .ok (base, ours, theirs))

include inputs

theorem mergeBranch_clash (env : Env V)
    (clash : Clash base.definition ours.definition theirs.definition) :
    ∃ conflicts, mergeBranch env toolName source target s =
      (.error (.versionConflict toolName conflicts), s) := by
  obtain ⟨conflicts, failed⟩ := mergedDefinition_clash toolName clash
  refine ⟨conflicts, ?_⟩
  rw [mergeBranch, inputs]
  dsimp only
  rw [failed]

/-- Without a conflict, the merged definition is committed unless the new identifier is taken. -/
theorem mergeBranch_clean (env : Env V)
    (clean : ¬ Clash base.definition ours.definition theirs.definition) :
    mergeBranch env toolName source target s = (.error .integrityError, s) ∨
      ∃ toolId, (mergeBranch env toolName source target s).1 = .ok toolId ∧
        ∃ row ∈ (mergeBranch env toolName source target s).2.tools.rows,
          row.toolId = toolId ∧
            row.definition = fieldwise base.definition ours.definition theirs.definition := by
  obtain ⟨_, top, _⟩ := mergeInputs_eq_ok inputs
  have goesOn : mergeBranch env toolName source target s =
      createVersion env toolName (fieldwise base.definition ours.definition theirs.definition)
        ("merge branch '" ++ source ++ "' into '" ++ target ++ "'") "minor" target "" s := by
    rw [mergeBranch, inputs]
    dsimp only
    rw [mergedDefinition_clean toolName clean]
  rw [goesOn]
  cases committed : commitHead s.tools (versionRow env toolName
      (fieldwise base.definition ours.definition theirs.definition) "minor" target "" ours) with
  | none => exact .inl (createVersion_taken top _ _ committed)
  | some next =>
      obtain ⟨done, tools⟩ := createVersion_ok top
        (fieldwise base.definition ours.definition theirs.definition)
        ("merge branch '" ++ source ++ "' into '" ++ target ++ "'") committed
      refine .inr ⟨_, done, ?_⟩
      rw [tools, (commitHead_rows rfl committed).1]
      exact ⟨_, List.mem_append_right _ (List.mem_singleton_self _), rfl, rfl⟩

end Merge

/-! ## What commits on the target keep -/

theorem makeRoom_definition (row old : ToolRow) :
    (makeRoom row old).definition = old.definition := by
  unfold makeRoom
  split
  · unfold demote
    split <;> rfl
  · rfl

theorem Makes.on_of_commits {env : Env V} {rows : List ToolRow} {call : Call V} {row : ToolRow}
    {toolName branch bump changeKind : String} (made : Makes env rows call row)
    (commits : CommitsVersion call toolName branch bump changeKind) : row.On toolName branch := by
  cases made with
  | upsert => cases commits
  | version commits' => cases commits' <;> cases commits <;> exact ⟨rfl, rfl⟩
  | branch => cases commits
  | promotion promotes => cases promotes <;> cases commits

theorem oldestOn_insert_other {rows : List ToolRow} {row : ToolRow} {toolName branch : String}
    (away : ¬ row.On toolName branch) :
    oldestOn (rows.map (makeRoom row) ++ [row]) toolName branch =
      (oldestOn rows toolName branch).map (makeRoom row) := by
  have keeps := makeRoom_keepsPlace row
  have same : branchRows (rows.map (makeRoom row) ++ [row]) toolName branch =
      (branchRows rows toolName branch).map (makeRoom row) := by
    rw [← keeps.branchRows]
    simp [branchRows, away]
  rw [oldestOn, same, oldest_map keeps.age, oldestOn]

theorem rowById_insert {rows : List ToolRow} {row found : ToolRow} {toolId : String}
    (isRow : rowById rows toolId = some found) :
    rowById (rows.map (makeRoom row) ++ [row]) toolId = some (makeRoom row found) := by
  have mapped : rowById (rows.map (makeRoom row)) toolId = some (makeRoom row found) := by
    rw [(makeRoom_keepsPlace row).rowById, isRow]
    rfl
  rw [rowById, List.find?_append]
  exact Option.or_of_isSome (by rw [← rowById, mapped]; rfl) |>.trans mapped

/-- A row inserted on the target changes what a merge reads only for the target. -/
theorem mergeInputs_insert {rows : List ToolRow} {row base ours theirs : ToolRow}
    {toolName source target : String} (on : row.On toolName target)
    (apart : source ≠ target)
    (inputs : mergeInputs rows toolName source target = .ok (base, ours, theirs)) :
    ∃ head, mergeInputs (rows.map (makeRoom row) ++ [row]) toolName source target =
      .ok (makeRoom row base, head, makeRoom row theirs) := by
  obtain ⟨isTheirs, _, baseId, isBase, named, found⟩ := mergeInputs_eq_ok_iff.mp inputs
  have keeps := makeRoom_keepsPlace row
  have away : ¬ row.On toolName source := fun both => apart (both.2.symm.trans on.2)
  obtain ⟨head, top⟩ := exists_newestOn
    (List.mem_append_right (rows.map (makeRoom row)) (List.mem_singleton_self row)) on
  refine ⟨head, mergeInputs_eq_ok_iff.mpr ⟨?_, top, baseId, ?_, named, rowById_insert found⟩⟩
  · rw [newestOn_insert_other away, isTheirs]
    rfl
  · obtain ⟨first, bottom, link⟩ := Option.bind_eq_some_iff.mp isBase
    rw [oldestOn_insert_other away, bottom, Option.map_some, Option.bind_some,
      keeps.parentVersionId, link]

/-- What is read of the source and of its fork point. -/
def Reads (rows : List ToolRow) (toolName source target : String)
    (base theirs : ToolDefinition) : Prop :=
  ∃ baseRow ours theirsRow,
    mergeInputs rows toolName source target = .ok (baseRow, ours, theirsRow) ∧
      baseRow.definition = base ∧ theirsRow.definition = theirs

theorem RowsAfter.reads {env : Env V} {s : StoreState V} {call : Call V} {next : List ToolRow}
    {toolName source target bump changeKind : String} {base theirs : ToolDefinition}
    (after : RowsAfter env s call next)
    (commits : CommitsVersion call toolName target bump changeKind) (apart : source ≠ target)
    (reads : Reads s.tools.rows toolName source target base theirs) :
    Reads next toolName source target base theirs := by
  cases after with
  | same => exact reads
  | @insert _ row new =>
      obtain ⟨baseRow, ours, theirsRow, inputs, isBase, isTheirs⟩ := reads
      have on : (stored s.tools row).On toolName target :=
        (makes_of_newRow new).1.on_of_commits commits
      obtain ⟨head, after⟩ := mergeInputs_insert on apart inputs
      exact ⟨_, head, _, after, (makeRoom_definition _ _).trans isBase,
        (makeRoom_definition _ _).trans isTheirs⟩
  | reupsert => cases commits
  | delete => cases commits

/-- The call is a `create_version` of the tool on the branch. -/
def CommitsOn (toolName branch : String) (call : Call V) : Prop :=
  ∃ newDefinition changelog bump changeKind,
    call = .createVersion toolName newDefinition changelog bump branch changeKind

theorem reads_run {toolName source target : String} {base theirs : ToolDefinition}
    (apart : source ≠ target) (commits : List (Env V × Call V))
    (onTarget : ∀ action ∈ commits, CommitsOn toolName target action.2) {s : StoreState V}
    (reads : Reads s.tools.rows toolName source target base theirs) :
    Reads (run step s commits).tools.rows toolName source target base theirs := by
  induction commits generalizing s with
  | nil => exact reads
  | cons action rest ih =>
      obtain ⟨env, call⟩ := action
      obtain ⟨newDefinition, changelog, bump, changeKind, isCall⟩ :=
        onTarget (env, call) List.mem_cons_self
      dsimp only at isCall
      subst isCall
      exact ih (fun later member => onTarget later (List.mem_cons_of_mem _ member))
        ((step_rows s _).reads .createVersion apart reads)

/-! ## The second merge -/

/-- The merge reports no conflict, and what it commits has the given content. -/
def MergesInto (env : Env V) (toolName source target : String) (s : StoreState V)
    (definition : ToolDefinition) : Prop :=
  (∀ conflicts, (mergeBranch env toolName source target s).1 ≠
    .error (.versionConflict toolName conflicts)) ∧
  ∀ toolId, (mergeBranch env toolName source target s).1 = .ok toolId →
    ∃ row ∈ (mergeBranch env toolName source target s).2.tools.rows,
      row.toolId = toolId ∧ row.definition = definition

/-- A merge that finds its identifier taken commits nothing, whatever it merges. -/
theorem mergesInto_iff {s : StoreState V} {toolName source target : String}
    {base ours theirs : ToolRow} (env : Env V)
    (inputs : mergeInputs s.tools.rows toolName source target = .ok (base, ours, theirs)) :
    MergesInto env toolName source target s ours.definition ↔
      Settled base.definition ours.definition theirs.definition ∨
        (mergeBranch env toolName source target s).1 = .error .integrityError := by
  by_cases clash : Clash base.definition ours.definition theirs.definition
  · obtain ⟨conflicts, failed⟩ := mergeBranch_clash inputs env clash
    rw [MergesInto, failed]
    constructor
    · exact fun merges => absurd rfl (merges.1 conflicts)
    · rintro (settled | taken)
      · exact absurd clash settled.clean
      · cases taken
  · rw [← fieldwise_eq_ours_iff clash]
    rcases mergeBranch_clean inputs env clash with failed | ⟨toolId, done, row, member, same, content⟩
    · rw [MergesInto, failed]
      refine iff_of_true ⟨by simp, by simp⟩ (.inr rfl)
    · rw [MergesInto, done]
      constructor
      · rintro ⟨_, commits⟩
        obtain ⟨other, here, otherSame, otherContent⟩ := commits toolId rfl
        obtain rfl := RowTable.eq_of_uniqueKey here member (otherSame.trans same.symm)
        exact .inl (content.symm.trans otherContent)
      · rintro (settled | taken)
        · refine ⟨by simp, fun other isOther => ?_⟩
          rw [← Except.ok.inj isOther]
          exact ⟨row, member, same, content.trans settled⟩
        · cases taken

/-- The state after a merge and further calls. -/
def afterMerge (env : Env V) (toolName source target : String) (s : StoreState V)
    (commits : List (Env V × Call V)) : StoreState V :=
  run step (mergeBranch env toolName source target s).2 commits

/--
After a merge and any versions created on its target, the second merge reads what
the first one read.  It reports no conflict and commits the content of the target
head exactly if each field is settled, as in the first merge's result all are, or
if it commits nothing.
-/
theorem mergesInto_again_iff (s : StoreState V) (env env' : Env V)
    (toolName source target toolId : String) (apart : source ≠ target)
    (committed : (mergeBranch env toolName source target s).1 = .ok toolId)
    (commits : List (Env V × Call V))
    (onTarget : ∀ action ∈ commits, CommitsOn toolName target action.2) :
    ∃ base theirs, Reads s.tools.rows toolName source target base theirs ∧
      (∃ row ∈ (mergeBranch env toolName source target s).2.tools.rows,
        row.toolId = toolId ∧ Settled base row.definition theirs) ∧
      ∃ head, newestOn (afterMerge env toolName source target s commits).tools.rows
          toolName target = some head ∧
        (MergesInto env' toolName source target (afterMerge env toolName source target s commits)
            head.definition ↔
          Settled base head.definition theirs ∨
            (mergeBranch env' toolName source target
              (afterMerge env toolName source target s commits)).1 = .error .integrityError) := by
  obtain ⟨base, ours, theirs, inputs⟩ := mergeInputs_of_committed committed
  have reads : Reads s.tools.rows toolName source target base.definition theirs.definition :=
    ⟨base, ours, theirs, inputs, rfl, rfl⟩
  refine ⟨base.definition, theirs.definition, reads, ?_, ?_⟩
  · have clean : ¬ Clash base.definition ours.definition theirs.definition := by
      intro clash
      obtain ⟨conflicts, failed⟩ := mergeBranch_clash inputs env clash
      rw [failed] at committed
      cases committed
    rcases mergeBranch_clean inputs env clean with failed | ⟨other, done, row, member, same, content⟩
    · rw [failed] at committed
      cases committed
    · rw [done] at committed
      refine ⟨row, member, same.trans (Except.ok.inj committed), ?_⟩
      rw [content]
      exact settled_fieldwise clean
  · have merged := (mergeBranch_rows env toolName source target s).reads .mergeBranch apart reads
    obtain ⟨baseRow, head, theirsRow, again, isBase, isTheirs⟩ :=
      reads_run apart commits onTarget merged
    refine ⟨head, (mergeInputs_eq_ok again).2.1, ?_⟩
    rw [← isBase, ← isTheirs]
    exact mergesInto_iff env' again

/-- A branch is forked and changes the description. -/
def forkedAndAdvanced : StoreState Unit :=
  run step (StoreState.empty none)
    [(atTime 1, .upsertTool (plainEntry "0.0.1")),
      (atTime 2, .createBranch "tool" "fix" ""),
      (atTime 3, .createVersion "tool" (plainDefinition "second") "" "patch" "fix" "")]

/-- The description is changed on `main`. -/
def describe (description : String) : Env Unit × Call Unit :=
  (atTime 5, .createVersion "tool" (plainDefinition description) "" "patch" "main" "")

theorem committed_forkedAndAdvanced :
    (mergeBranch (atTime 4) "tool" "fix" "main" forkedAndAdvanced).1 = .ok "tool@0.1.0" := by
  decide +kernel

theorem commitsOn_describe (description : String) :
    ∀ action ∈ [describe description], CommitsOn "tool" "main" action.2 := by
  simp only [List.mem_singleton, forall_eq]
  exact ⟨_, _, _, _, rfl⟩

theorem mergesInto_again_iff_forkedAndAdvanced :
    ∃ base theirs, Reads forkedAndAdvanced.tools.rows "tool" "fix" "main" base theirs ∧
      (∃ row ∈ (mergeBranch (atTime 4) "tool" "fix" "main" forkedAndAdvanced).2.tools.rows,
        row.toolId = "tool@0.1.0" ∧ Settled base row.definition theirs) ∧
      ∃ head, newestOn (afterMerge (atTime 4) "tool" "fix" "main" forkedAndAdvanced
          [describe "second"]).tools.rows "tool" "main" = some head ∧
        (MergesInto (atTime 6) "tool" "fix" "main" (afterMerge (atTime 4) "tool" "fix" "main"
            forkedAndAdvanced [describe "second"]) head.definition ↔
          Settled base head.definition theirs ∨
            (mergeBranch (atTime 6) "tool" "fix" "main" (afterMerge (atTime 4) "tool" "fix" "main"
              forkedAndAdvanced [describe "second"])).1 = .error .integrityError) :=
  mergesInto_again_iff forkedAndAdvanced (atTime 4) (atTime 6) "tool" "fix" "main" "tool@0.1.0"
    (by decide) committed_forkedAndAdvanced [describe "second"] (commitsOn_describe "second")

/-- After each merge and all versions created on its target, merging again changes nothing. -/
def MergesStably (s : StoreState V) : Prop :=
  ∀ (env env' : Env V) (toolName source target toolId : String), source ≠ target →
    (mergeBranch env toolName source target s).1 = .ok toolId →
      ∀ commits : List (Env V × Call V),
        (∀ action ∈ commits, CommitsOn toolName target action.2) →
          ∀ head, newestOn (afterMerge env toolName source target s commits).tools.rows
              toolName target = some head →
            MergesInto env' toolName source target
              (afterMerge env toolName source target s commits) head.definition

/-- Changing what was merged to a third value makes the second merge conflict. -/
theorem not_mergesStably_forkedAndAdvanced : ¬ MergesStably forkedAndAdvanced := by
  intro stable
  have conflict : (mergeBranch (atTime 6) "tool" "fix" "main" (afterMerge (atTime 4) "tool" "fix"
      "main" forkedAndAdvanced [describe "third"])).1 =
        .error (.versionConflict "tool" ["description"]) := by decide +kernel
  have top : (newestOn (afterMerge (atTime 4) "tool" "fix" "main" forkedAndAdvanced
      [describe "third"]).tools.rows "tool" "main").isSome = true := by decide +kernel
  obtain ⟨head, isHead⟩ := Option.isSome_iff_exists.mp top
  have merges := stable (atTime 4) (atTime 6) "tool" "fix" "main" "tool@0.1.0" (by decide)
    committed_forkedAndAdvanced [describe "third"] (commitsOn_describe "third") head isHead
  exact merges.1 ["description"] conflict

end YouMi.Mcp.ToolStore
