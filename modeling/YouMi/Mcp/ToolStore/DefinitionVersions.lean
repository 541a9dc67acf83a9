import YouMi.Mcp.ToolStore.MergeAgain

/-!
# What a row says twice

A row has its version in a column and, inside its definition, a second time; and its
stage is a column too, although the version tells it.  Every statement that writes a
row computes the stage anew or copies it with the version.  The version in the
definition is the caller's, or that of another row, and only a promotion sets it.
-/

namespace YouMi.Mcp.ToolStore

open YouMi.Core YouMi.Library YouMi.Python

variable {V : Type}

/-! ## The stage -/

/-- The stage of every row is that of its version. -/
def StagesAgree (rows : List ToolRow) : Prop := ∀ row ∈ rows, row.stage = stageOf row.version

theorem stagesAgree_throughout (vecExtension : Option (VecExtension V))
    (actions : List (Env V × Call V)) :
    Throughout step (fun s => StagesAgree s.tools.rows) (StoreState.empty vecExtension)
      actions := by
  intro count row member
  have reach := reachableState_run vecExtension (actions.take count)
  exact (reach.wellFormed.each row member).stage

/-! ## The version -/

/-- The definition of every row has the version of the row. -/
def VersionsAgree (rows : List ToolRow) : Prop :=
  ∀ row ∈ rows, row.definition.version = row.version

/-- What `get_tool` reads for a version has that version in its definition. -/
def ReadsVersion (rows : List ToolRow) : Prop :=
  ∀ toolName version row, isValidSemver version = true →
    getTool rows toolName version = some row → row.definition.version = version

/-- The version of the row that a commit on the branch inserts, if it inserts one. -/
def nextOn (rows : List ToolRow) (toolName branch bump changeKind : String) : Option String :=
  (newestOn rows toolName branch).bind fun old =>
    let version := nextVersion old.version bump changeKind
    if (rowById rows (toolIdOn toolName branch version)).isSome then none else some version

/-- The call brings a definition that has the version under which it will be stored. -/
def NamesVersion (s : StoreState V) (action : Env V × Call V) : Prop :=
  let rows := s.tools.rows
  match action.2 with
  | .upsertTool entry =>
      VectorRefused s entry ∨ entry.definition.version = resolvedVersion entry
  | .createVersion toolName newDefinition _ bump branch changeKind =>
      ∀ version ∈ nextOn rows toolName branch bump changeKind, newDefinition.version = version
  | .rollback toolName toVersion =>
      ∀ target ∈ getTool rows toolName toVersion,
        ∀ version ∈ nextOn rows toolName "main" "patch" "", target.version = version
  | .mergeBranch toolName source target =>
      ∀ base ours theirs, mergeInputs rows toolName source target = .ok (base, ours, theirs) →
        ¬ Clash base.definition ours.definition theirs.definition →
          ∀ version ∈ nextOn rows toolName target "minor" "",
            (if base.version = ours.version then theirs.version else ours.version) = version
  | _ => True

/-! ## The row that is inserted -/

theorem getTool_mem {rows : List ToolRow} {toolName version : String} {row : ToolRow}
    (found : getTool rows toolName version = some row) : row ∈ rows := by
  unfold getTool at found
  split at found
  · exact (rowById_mem found).1
  · exact (newestOn_mem found).1

section Inserted

variable {env : Env V} {rows : List ToolRow}

/-- A commit inserts the definition under the next version of the branch. -/
theorem newVersionRow_agrees_iff (toolName : String) (newDefinition : ToolDefinition)
    (bump branch changeKind : String) :
    (∀ row ∈ newVersionRow env rows toolName newDefinition bump branch changeKind,
        row.definition.version = row.version) ↔
      ∀ version ∈ nextOn rows toolName branch bump changeKind,
        newDefinition.version = version := by
  unfold newVersionRow nextOn free
  cases newestOn rows toolName branch with
  | none => simp
  | some old =>
      simp only [Option.bind_some]
      change (∀ row ∈ if (rowById rows (toolIdOn toolName branch
          (nextVersion old.version bump changeKind))).isSome then none else some _, _) ↔ _
      split
      · simp
      · simp [versionRow]

/-- Merged definitions have the version of the side that changed it. -/
theorem fieldwise_version (base ours theirs : ToolDefinition) :
    (fieldwise base ours theirs).version =
      if base.version = ours.version then theirs.version else ours.version := by
  have taken : fieldVerdict base ours theirs "version" = .takeTheirs ↔
      ours.version ≠ theirs.version ∧ base.version = ours.version := by
    rw [fieldVerdict, verdict_eq_takeTheirs_iff]
    simp [ToolDefinition.dump, Dict.get, List.lookup_cons, PyVal.pyEq]
  change (if fieldVerdict base ours theirs "version" = .takeTheirs then theirs
    else ours).version = _
  by_cases kept : base.version = ours.version
  · rw [if_pos kept]
    by_cases same : ours.version = theirs.version
    · rw [if_neg fun takes => (taken.mp takes).1 same, same]
    · rw [if_pos (taken.mpr ⟨same, kept⟩)]
  · rw [if_neg kept, if_neg fun takes => kept (taken.mp takes).2]

/-- The row of a merge agrees if the merged version is the next one of the target. -/
theorem newRow_merge_agrees_iff {s : StoreState V} (agree : VersionsAgree s.tools.rows)
    (toolName source target : String) :
    (∀ row ∈ newRow env s (.mergeBranch toolName source target),
        row.definition.version = row.version) ↔
      NamesVersion s (env, .mergeBranch toolName source target) := by
  unfold NamesVersion
  dsimp only
  cases inputs : mergeInputs s.tools.rows toolName source target with
  | error e =>
      have nothing : newRow env s (.mergeBranch toolName source target) = none := by
        rw [newRow, inputs]
      rw [nothing]
      refine iff_of_true (fun _ new => absurd new (Option.not_mem_none _)) ?_
      intro base ours theirs failed
      cases failed
  | ok heads =>
      obtain ⟨base, ours, theirs⟩ := heads
      obtain ⟨isTheirs, isOurs, baseId, _, _, isBase⟩ := mergeInputs_eq_ok_iff.mp inputs
      have baseOwn := agree base (rowById_mem isBase).1
      have oursOwn := agree ours (newestOn_mem isOurs).1
      have theirsOwn := agree theirs (newestOn_mem isTheirs).1
      by_cases clash : Clash base.definition ours.definition theirs.definition
      · obtain ⟨conflicts, failed⟩ := mergedDefinition_clash toolName clash
        have nothing : newRow env s (.mergeBranch toolName source target) = none := by
          rw [newRow, inputs]
          dsimp only
          rw [failed]
        rw [nothing]
        refine iff_of_true (fun _ new => absurd new (Option.not_mem_none _)) ?_
        intro _ _ _ same clean
        cases same
        exact absurd clash clean
      · have planned : newRow env s (.mergeBranch toolName source target) =
            newVersionRow env s.tools.rows toolName
              (fieldwise base.definition ours.definition theirs.definition) "minor" target "" := by
          rw [newRow, inputs]
          dsimp only
          rw [mergedDefinition_clean toolName clash]
        rw [planned, newVersionRow_agrees_iff, fieldwise_version, baseOwn, oursOwn, theirsOwn]
        constructor
        · intro names _ _ _ same _
          cases same
          exact names
        · exact fun names => names base ours theirs rfl clash

theorem newPromotedRow_agrees {s : StoreState V} {toolName : String} :
    ∀ row ∈ newPromotedRow env s toolName, row.definition.version = row.version := by
  intro row new
  have promotes : Promotes (.promoteToStable toolName "" : Call V) toolName := .promoteToStable
  cases (makes_of_newPromotedRow promotes new).1 with
  | version commits => cases commits
  | promotion => rfl

/-- Calls other than upserts insert a row that agrees if they name its version. -/
theorem newRow_agrees_iff {s : StoreState V} (agree : VersionsAgree s.tools.rows) {call : Call V}
    (notUpsert : ∀ entry, call ≠ .upsertTool entry) :
    (∀ row ∈ newRow env s call, row.definition.version = row.version) ↔
      NamesVersion s (env, call) := by
  cases call with
  | upsertTool entry => exact absurd rfl (notUpsert entry)
  | createVersion toolName newDefinition changelog bump branch changeKind =>
      exact newVersionRow_agrees_iff toolName newDefinition bump branch changeKind
  | createBranch toolName branchName fromVersion =>
      refine iff_of_true (fun row new => ?_) trivial
      cases (makes_of_newRow new).1 with
      | version commits => cases commits
      | @branch _ _ _ base _ _ fork => exact agree base (forkPoint_mem fork).1
      | promotion promotes => cases promotes
  | mergeBranch toolName source target => exact newRow_merge_agrees_iff agree toolName source target
  | rollback toolName toVersion =>
      unfold NamesVersion newRow
      dsimp only
      cases found : getTool s.tools.rows toolName toVersion with
      | none =>
          refine iff_of_true (fun _ new => absurd new (Option.not_mem_none _)) ?_
          exact fun _ isTarget => absurd isTarget (Option.not_mem_none _)
      | some target =>
          have own := agree target (getTool_mem found)
          rw [Option.bind_some, newVersionRow_agrees_iff, own]
          simp
  | promoteToStable toolName evidence => exact iff_of_true newPromotedRow_agrees trivial
  | markExternal toolName => exact iff_of_true newPromotedRow_agrees trivial
  | deleteTool => exact iff_of_true (fun _ new => absurd new (Option.not_mem_none _)) trivial
  | addTag => exact iff_of_true (fun _ new => absurd new (Option.not_mem_none _)) trivial

end Inserted

/-! ## A call -/

/-- A change that leaves both versions of a row alone. -/
def KeepsVersions (change : ToolRow → ToolRow) : Prop :=
  ∀ row, (change row).version = row.version ∧
    (change row).definition.version = row.definition.version

theorem VersionsAgree.map_iff {rows : List ToolRow} {change : ToolRow → ToolRow}
    (keeps : KeepsVersions change) : VersionsAgree (rows.map change) ↔ VersionsAgree rows := by
  unfold VersionsAgree
  rw [List.forall_mem_map]
  simp only [(keeps _).1, (keeps _).2]

theorem makeRoom_keepsVersions (row : ToolRow) : KeepsVersions (makeRoom row) := fun old =>
  ⟨(makeRoom_keepsPlace row).version old, congrArg _ (makeRoom_definition row old)⟩

theorem external_keepsVersions (toolName : String) : KeepsVersions (external toolName) := by
  intro row
  unfold external
  split <;> exact ⟨rfl, rfl⟩

theorem reupsert_definition (new old : ToolRow) :
    (reupsert new old).definition =
      if old.toolId = new.toolId then new.definition else old.definition := by
  unfold reupsert
  split
  · rename_i same
    rw [overwrite, if_pos same]
  · exact makeRoom_definition new old

/-- A second upsert puts its definition where the first one's was. -/
theorem versionsAgree_reupsert_iff {env : Env V} {rows : List ToolRow} {entry : ToolEntry V}
    (wellFormed : WellFormed rows) (agree : VersionsAgree rows)
    (taken : ∃ old ∈ rows, old.toolId = (upsertRow env entry rows).toolId) :
    VersionsAgree (rows.map (reupsert (upsertRow env entry rows))) ↔
      entry.definition.version = resolvedVersion entry := by
  have same {old : ToolRow} (member : old ∈ rows)
      (isId : old.toolId = (upsertRow env entry rows).toolId) :
      old.version = resolvedVersion entry := by
    have isMain : old.toolId = toolIdOn entry.toolName "main" (resolvedVersion entry) :=
      isId.trans (toolIdOn_main _ _).symm
    have valid := isValidSemver_resolveInitialVersion
      (orElse entry.version entry.definition.version) (normalizeOrigin (some entry.origin))
    exact (wellFormed.on_of_toolId member legalBranch_main valid isMain).2
  unfold VersionsAgree
  rw [List.forall_mem_map]
  simp only [reupsert_definition, (reupsert_keepsPlace _).version]
  constructor
  · intro after
    obtain ⟨old, member, isId⟩ := taken
    have own := after old member
    rw [if_pos isId, same member isId] at own
    exact own
  · intro names old member
    split
    · rename_i isId
      exact names.trans (same member isId).symm
    · exact agree old member

/-- An inserted row leaves the versions in agreement if its own agree. -/
theorem versionsAgree_insert_iff {tools : ToolTable} {row : ToolRow}
    (agree : VersionsAgree tools.rows) :
    VersionsAgree (tools.rows.map (makeRoom (stored tools row)) ++ [stored tools row]) ↔
      row.definition.version = row.version := by
  constructor
  · intro after
    exact after (stored tools row) (List.mem_append_right _ (List.mem_singleton_self _))
  · intro own other member
    rcases List.mem_append.mp member with old | new
    · exact (VersionsAgree.map_iff (makeRoom_keepsVersions _)).mpr agree other old
    · cases List.mem_singleton.mp new
      exact own

theorem upsertTool_versionsAgree_iff (env : Env V) (entry : ToolEntry V) {s : StoreState V}
    (wellFormed : WellFormed s.tools.rows) (agree : VersionsAgree s.tools.rows) :
    VersionsAgree (upsertTool env entry s).2.tools.rows ↔
      VectorRefused s entry ∨ entry.definition.version = resolvedVersion entry := by
  rcases upsertTool_tools env entry s with ⟨refused, unchanged⟩ | ⟨accepted, written⟩
  · rw [unchanged]
    exact iff_of_true agree (.inl refused)
  · rw [written, or_iff_right accepted]
    rcases upsertInto_rows s.tools (upsertRow env entry s.tools.rows) with
      ⟨rows, _⟩ | ⟨rows, taken⟩
    · rw [rows, versionsAgree_insert_iff agree]
      exact Iff.rfl
    · rw [rows, versionsAgree_reupsert_iff wellFormed agree taken]

theorem RowsAfter.versionsAgree_iff {env : Env V} {s : StoreState V} {call : Call V}
    {next : List ToolRow} (after : RowsAfter env s call next)
    (notUpsert : ∀ entry, call ≠ .upsertTool entry) (agree : VersionsAgree s.tools.rows) :
    VersionsAgree next ↔ NamesVersion s (env, call) := by
  cases after with
  | same nothing =>
      rw [← newRow_agrees_iff agree notUpsert, nothing]
      exact iff_of_true agree fun _ new => absurd new (Option.not_mem_none _)
  | insert new fresh =>
      rw [← newRow_agrees_iff agree notUpsert, new, versionsAgree_insert_iff agree]
      simp
  | reupsert accepted taken => exact absurd rfl (notUpsert _)
  | delete =>
      exact iff_of_true (fun row member => agree row (List.mem_filter.mp member).1) trivial

theorem step_versionsAgree_iff (s : StoreState V) (action : Env V × Call V)
    (wellFormed : WellFormed s.tools.rows) (agree : VersionsAgree s.tools.rows) :
    VersionsAgree (step s action).tools.rows ↔ NamesVersion s action := by
  obtain ⟨env, call⟩ := action
  by_cases isUpsert : ∃ entry, call = .upsertTool entry
  · obtain ⟨entry, rfl⟩ := isUpsert
    exact upsertTool_versionsAgree_iff env entry wellFormed agree
  · have notUpsert : ∀ entry, call ≠ .upsertTool entry := fun entry same => isUpsert ⟨entry, same⟩
    have after := step_rows s (env, call)
    rcases marked_cases s call with same | ⟨toolName, rfl, rows⟩
    · rw [same] at after
      exact after.versionsAgree_iff notUpsert agree
    · -- What marking a tool changes is not a version.
      refine after.versionsAgree_iff notUpsert ?_
      rw [rows]
      exact (VersionsAgree.map_iff (external_keepsVersions toolName)).mpr agree

/-! ## Runs -/

theorem readsVersion_of_versionsAgree {rows : List ToolRow} (wellFormed : WellFormed rows)
    (agree : VersionsAgree rows) : ReadsVersion rows := by
  intro toolName version row valid found
  have given : version ≠ "" := by
    rintro rfl
    cases valid
  obtain ⟨member, isId⟩ := rowById_mem ((if_pos given).symm.trans found)
  have isMain : row.toolId = toolIdOn toolName "main" version :=
    isId.trans (toolIdOn_main _ _).symm
  rw [agree row member, (wellFormed.on_of_toolId member legalBranch_main valid isMain).2]

/--
The versions agree throughout a run, and are those that `get_tool` is asked for, exactly
if every call brings a definition with the version under which it is stored.
-/
theorem versionsAgree_throughout_iff (vecExtension : Option (VecExtension V))
    (actions : List (Env V × Call V)) :
    Throughout step (fun s => VersionsAgree s.tools.rows ∧ ReadsVersion s.tools.rows)
        (StoreState.empty vecExtension) actions ↔
      StepsMeet step NamesVersion (StoreState.empty vecExtension) actions := by
  have start : VersionsAgree (StoreState.empty vecExtension).tools.rows := by
    simp [VersionsAgree, StoreState.empty]
  refine throughout_iff_stepsMeet (fun s : StoreState V => WellFormed s.tools.rows) _
    step_wellFormed ?_ (wellFormed_empty vecExtension)
    ⟨start, readsVersion_of_versionsAgree (wellFormed_empty vecExtension) start⟩ actions
  intro s action wellFormed agree
  rw [← step_versionsAgree_iff s action wellFormed agree.1]
  refine and_iff_left_of_imp ?_
  exact readsVersion_of_versionsAgree (step_wellFormed s action wellFormed)

/-- A tool is registered, and a version is committed whose definition still has the old one. -/
def committedUnnamed : List (Env Unit × Call Unit) :=
  [(atTime 1, .upsertTool (plainEntry "1.0.0")),
    (atTime 2, .createVersion "tool" (plainDefinition "second") "" "patch" "main" "")]

theorem not_versionsAgree_committedUnnamed :
    ¬ VersionsAgree (run step (StoreState.empty none) committedUnnamed).tools.rows := by
  intro agree
  have apart : (run step (StoreState.empty none) committedUnnamed).tools.rows.any
      (fun row => row.version = "1.0.1" ∧ row.definition.version = "1.0.0") = true := by rfl
  simp only [List.any_eq_true, decide_eq_true_eq] at apart
  obtain ⟨row, member, version, inside⟩ := apart
  have same := agree row member
  rw [version, inside] at same
  exact absurd same (by decide)

end YouMi.Mcp.ToolStore
