import YouMi.Mcp.ToolStore.WellFormed

/-!
# From candidate to stable

A tool registered at `0.x.y` should become stable by promotion only.  Bumping by
a kind of change keeps a candidate a candidate; bumping by `major` without one
does not, and `create_version` offers both.
-/

namespace YouMi.Mcp.ToolStore

open YouMi.Core YouMi.Library

variable {V : Type}

/-- No row of the tool, on whatever branch, has a version from `1.0.0` on. -/
def AllCandidates (toolName : String) (rows : List ToolRow) : Prop :=
  ∀ row ∈ rows, row.toolName = toolName → isStable row.version = false

/-- The call is none of those that may make the tool stable. -/
def NoPromotion (toolName : String) (call : Call V) : Prop :=
  match call with
  | .upsertTool entry => entry.toolName = toolName → isStable (resolvedVersion entry) = false
  | .promoteToStable name _ => name ≠ toolName
  | .markExternal name => name ≠ toolName
  | _ => True

/-- The call is no major bump, without a kind of change, of a version of the tool. -/
def NoMajorBump (toolName : String) (rows : List ToolRow) (call : Call V) : Prop :=
  match call with
  | .createVersion name _ _ bump branch changeKind =>
      name = toolName → changeKind = "" → bump = "major" →
        ∀ old, newestOn rows name branch = some old → ¬ Readable old.version
  | _ => True

/-- The one way in which the version after a candidate is stable. -/
theorem isStable_nextVersion_iff {current bump changeKind : String}
    (valid : isValidSemver current = true) (candidate : isStable current = false) :
    isStable (nextVersion current bump changeKind) = true ↔
      changeKind = "" ∧ bump = "major" ∧ Readable current := by
  obtain ⟨v, parsed⟩ := exists_of_isValidSemver valid
  have zero := (isStable_eq_false_iff parsed).mp candidate
  unfold nextVersion
  split
  · rename_i given
    obtain ⟨bumpType, read, notMajor⟩ := parseSemver_bumpFor parsed changeKind
    refine iff_of_false ?_ (fun stable => given stable.1)
    rw [Bool.not_eq_true, isStable_eq_false_iff read, Semver.bumped_major_eq_zero_iff zero]
    exact notMajor zero
  · rename_i none_given
    rw [not_not] at none_given
    by_cases readable : Readable current
    · rw [← not_iff_not, Bool.not_eq_true,
        isStable_eq_false_iff (bumpVersion_of_readable parsed readable),
        Semver.bumped_major_eq_zero_iff zero, ne_eq, BumpType.ofText_eq_major_iff]
      simp [none_given, readable]
    · rw [bumpVersion_of_not_readable readable]
      exact iff_of_false (by decide) (fun stable => readable stable.2.2)

/-! ## Steps -/

theorem AllCandidates.map {toolName : String} {rows : List ToolRow} {change : ToolRow → ToolRow}
    (candidates : AllCandidates toolName rows) (keeps : KeepsPlace change) :
    AllCandidates toolName (rows.map change) := by
  intro row member name
  obtain ⟨old, hold, rfl⟩ := List.mem_map.mp member
  rw [keeps.toolName] at name
  rw [keeps.version]
  exact candidates old hold name

/-- A row that is inserted is a candidate unless it is a promotion or a major bump. -/
theorem Makes.candidate {env : Env V} {rows : List ToolRow} {call : Call V} {row : ToolRow}
    {toolName : String} (made : Makes env rows call row) (wellFormed : WellFormed rows)
    (candidates : AllCandidates toolName rows) (allowed : NoPromotion toolName call)
    (noMajor : NoMajorBump toolName rows call) (name : row.toolName = toolName) :
    isStable row.version = false := by
  cases made with
  | upsert => exact allowed name
  | @version _ toolName' branch bump changeKind _ old commits top =>
      obtain ⟨member, on⟩ := newestOn_mem top
      have candidate := candidates old member (on.1.trans name)
      rw [← Bool.not_eq_true]
      refine fun stable => ?_
      obtain ⟨noKind, major, readable⟩ :=
        (isStable_nextVersion_iff (wellFormed.each old member).version candidate).mp stable
      -- Rollbacks and merges raise the patch and the minor part.
      cases commits with
      | createVersion => exact noMajor name noKind major old top readable
      | rollback => exact absurd major (by decide)
      | mergeBranch => exact absurd major (by decide)
  | @branch _ _ _ base _ _ fork => exact candidates base (forkPoint_mem fork).1 name
  | promotion promotes _ _ _ =>
      cases promotes with
      | promoteToStable => exact absurd name allowed
      | markExternal => exact absurd name allowed

theorem AllCandidates.after {env : Env V} {s : StoreState V} {next : List ToolRow} {call : Call V}
    {toolName : String} (candidates : AllCandidates toolName s.tools.rows)
    (wellFormed : WellFormed s.tools.rows) (allowed : NoPromotion toolName call)
    (noMajor : NoMajorBump toolName s.tools.rows call) (after : RowsAfter env s call next) :
    AllCandidates toolName next := by
  cases after with
  | same => exact candidates
  | @insert _ row new _ =>
      intro other member name
      rcases List.mem_append.mp member with old | last
      · exact candidates.map (makeRoom_keepsPlace _) other old name
      · rw [List.mem_singleton.mp last] at name ⊢
        exact (makes_of_newRow new).1.candidate wellFormed candidates allowed noMajor name
  | reupsert => exact candidates.map (reupsert_keepsPlace _)
  | delete => exact fun row member => candidates row (List.mem_filter.mp member).1

theorem allCandidates_of_noMajorBump {toolName : String} (s : StoreState V)
    (action : Env V × Call V) (wellFormed : WellFormed s.tools.rows)
    (candidates : AllCandidates toolName s.tools.rows) (allowed : NoPromotion toolName action.2)
    (noMajor : NoMajorBump toolName s.tools.rows action.2) :
    AllCandidates toolName (step s action).tools.rows := by
  have after := step_rows s action
  rcases marked_cases s action.2 with same | ⟨name, isMark, rows⟩
  · rw [same] at after
    exact candidates.after wellFormed allowed noMajor after
  · refine AllCandidates.after ?_ (marked_wellFormed wellFormed action.2) allowed ?_ after
    · rw [rows]
      exact candidates.map (external_keepsPlace name)
    · rw [isMark]
      trivial

/-- A major bump without a kind of change does make a candidate stable. -/
theorem noMajorBump_of_allCandidates {toolName : String} (s : StoreState V)
    (action : Env V × Call V) (wellFormed : WellFormed s.tools.rows)
    (candidates : AllCandidates toolName s.tools.rows)
    (after : AllCandidates toolName (step s action).tools.rows) :
    NoMajorBump toolName s.tools.rows action.2 := by
  obtain ⟨env, call⟩ := action
  cases call with
  | createVersion name newDefinition changelog bump branch changeKind =>
      rintro rfl rfl rfl old top readable
      obtain ⟨member, on⟩ := newestOn_mem top
      have form := wellFormed.each old member
      have stable := (isStable_nextVersion_iff form.version (candidates old member on.1)).mpr
        ⟨rfl, rfl, readable⟩
      have valid := isValidSemver_nextVersion "major" "" form.version
      -- Its identifier is free, since no row of the tool is stable.
      obtain ⟨next, committed⟩ : ∃ next, commitHead s.tools
          (versionRow env name newDefinition "major" branch "" old) = some next := by
        refine Option.ne_none_iff_exists'.mp fun full => ?_
        obtain ⟨other, hother, taken⟩ := commitHead_eq_none_iff.mp full
        obtain ⟨otherOn, isVersion⟩ :=
          wellFormed.on_of_toolId hother (on.2 ▸ form.branch) valid taken
        have candidate := candidates other hother otherOn.1
        rw [isVersion, stable] at candidate
        cases candidate
      have tools := (createVersion_ok top newDefinition changelog committed).2
      have rows := (commitHead_rows rfl committed).1
      change AllCandidates name
        (createVersion env name newDefinition changelog "major" branch "" s).2.tools.rows at after
      rw [tools, rows] at after
      have candidate := after _ (List.mem_append_right _ (List.mem_singleton_self _)) rfl
      change isStable (nextVersion old.version "major" "") = false at candidate
      rw [stable] at candidate
      cases candidate
  | _ => trivial

/--
In a run without promotion of the tool, its rows are candidates in all states
exactly if no version of it is bumped by `major` without a kind of change.
-/
theorem allCandidates_throughout_iff (toolName : String)
    (vecExtension : Option (VecExtension V)) (actions : List (Env V × Call V))
    (allowed : ∀ action ∈ actions, NoPromotion toolName action.2) :
    Throughout step (fun s => AllCandidates toolName s.tools.rows)
        (StoreState.empty vecExtension) actions ↔
      StepsMeet step (fun s action => NoMajorBump toolName s.tools.rows action.2)
        (StoreState.empty vecExtension) actions := by
  refine throughout_iff_stepsMeet_of_allowed
    (fun s : StoreState V => WellFormed s.tools.rows)
    (fun s => AllCandidates toolName s.tools.rows)
    (fun _ action => NoPromotion toolName action.2)
    (fun s action wellFormed _ => step_wellFormed s action wellFormed) ?_
    (wellFormed_empty vecExtension) (by simp [AllCandidates, StoreState.empty])
    (stepsMeet_of_forall step _ allowed)
  intro s action wellFormed candidates promotes
  exact ⟨noMajorBump_of_allCandidates s action wellFormed candidates,
    allCandidates_of_noMajorBump s action wellFormed candidates promotes⟩

/-- A candidate is registered and then bumped to a major version. -/
def bumpedByMajor : List (Env Unit × Call Unit) :=
  [(atTime 1, .upsertTool (plainEntry "0.0.1")),
    (atTime 2, .createVersion "tool" (plainDefinition "second") "" "major" "main" "")]

theorem noPromotion_bumpedByMajor :
    ∀ action ∈ bumpedByMajor, NoPromotion "tool" action.2 := by
  simp only [bumpedByMajor, List.mem_cons, List.not_mem_nil, or_false, forall_eq_or_imp, forall_eq]
  exact ⟨fun _ => by decide, trivial⟩

theorem allCandidates_throughout_iff_bumpedByMajor :
    Throughout step (fun s => AllCandidates "tool" s.tools.rows) (StoreState.empty none)
        bumpedByMajor ↔
      StepsMeet step (fun s action => NoMajorBump "tool" s.tools.rows action.2)
        (StoreState.empty none) bumpedByMajor :=
  allCandidates_throughout_iff "tool" none bumpedByMajor noPromotion_bumpedByMajor

theorem not_allCandidates_bumpedByMajor :
    (∀ action ∈ bumpedByMajor, NoPromotion "tool" action.2) ∧
      ¬ AllCandidates "tool" (run step (StoreState.empty none) bumpedByMajor).tools.rows := by
  refine ⟨noPromotion_bumpedByMajor, fun candidates => ?_⟩
  have stable : (run step (StoreState.empty none) bumpedByMajor).tools.rows.any
      (fun row => row.toolName = "tool" ∧ isStable row.version = true) = true := by rfl
  simp only [List.any_eq_true, decide_eq_true_eq] at stable
  obtain ⟨row, member, name, isStable⟩ := stable
  exact absurd (candidates row member name) (by simp [isStable])

end YouMi.Mcp.ToolStore
