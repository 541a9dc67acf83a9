import YouMi.Mcp.ToolStore.WellFormed

/-!
# Creating a branch that exists

`create_branch` looks for an existing branch under the identifier of one row,
the snapshot of the fork point.  A branch without a row of that version is taken
for a new one, however many rows it has.
-/

namespace YouMi.Mcp.ToolStore

open YouMi.Core YouMi.Library

variable {V : Type}

/-- A branch is only created where there was none; otherwise nothing but a `ValueError` happens. -/
structure RefusesExisting (env : Env V) (toolName branchName fromVersion : String)
    (s : StoreState V) : Prop where
  created : ∀ toolId, (createBranch env toolName branchName fromVersion s).1 = .ok toolId →
    ¬ HasBranch s.tools.rows toolName branchName
  refused : HasBranch s.tools.rows toolName branchName →
    ∃ e, createBranch env toolName branchName fromVersion s = (.error e, s) ∧
      e.isValueError = true

/-- The call inserts a row: the name is legal and the snapshot of the fork point is not there. -/
def Forks (rows : List ToolRow) (toolName branchName fromVersion : String) : Prop :=
  branchName ≠ "main" ∧ LegalBranch branchName ∧
    ∃ base, forkPoint rows toolName fromVersion = some base ∧
      rowById rows (branchToolId toolName branchName base.version) = none

/-- A call that forks succeeds; any other raises a `ValueError` and changes nothing. -/
theorem createBranch_result (env : Env V) (toolName branchName fromVersion : String)
    (s : StoreState V) :
    (Forks s.tools.rows toolName branchName fromVersion ∧
      ∃ toolId, (createBranch env toolName branchName fromVersion s).1 = .ok toolId) ∨
    (¬ Forks s.tools.rows toolName branchName fromVersion ∧
      ∃ e, createBranch env toolName branchName fromVersion s = (.error e, s) ∧
        e.isValueError = true) := by
  unfold createBranch Forks
  split
  · rename_i main
    exact .inr ⟨fun forks => forks.1 main, _, rfl, rfl⟩
  · rename_i notMain
    split
    · rename_i separator
      refine .inr ⟨fun forks => ?_, _, rfl, rfl⟩
      exact separator.elim forks.2.1.2 forks.2.1.1
    · rename_i legal
      rw [not_or] at legal
      cases fork : forkPoint s.tools.rows toolName fromVersion with
      | none => exact .inr ⟨by simp, _, rfl, rfl⟩
      | some base =>
          dsimp only [branchRow]
          cases found : rowById s.tools.rows (branchToolId toolName branchName base.version) with
          | some row =>
              refine .inr ⟨?_, _, rfl, rfl⟩
              rintro ⟨_, _, other, same, absent⟩
              rw [← Option.some.inj same, found] at absent
              cases absent
          | none =>
              refine .inl ⟨⟨notMain, ⟨legal.2, legal.1⟩, base, rfl, found⟩, ?_⟩
              dsimp only [Option.isSome_none]
              rw [if_neg Bool.false_ne_true]
              split
              · rename_i full
                obtain ⟨old, member, taken⟩ := commitHead_eq_none_iff.mp full
                exact absurd taken (rowById_eq_none_iff.mp found old member)
              · exact ⟨_, rfl⟩

/-- The identifier of a snapshot is that of a row exactly if the branch has its version. -/
theorem rowById_branchToolId_eq_none_iff {rows : List ToolRow} (wellFormed : WellFormed rows)
    {toolName branchName version : String} (notMain : branchName ≠ "main")
    (legal : LegalBranch branchName) (valid : isValidSemver version = true) :
    rowById rows (branchToolId toolName branchName version) = none ↔
      ∀ row ∈ rows, row.On toolName branchName → row.version ≠ version := by
  have form : toolIdOn toolName branchName version = branchToolId toolName branchName version :=
    if_neg notMain
  rw [rowById_eq_none_iff]
  constructor
  · rintro absent row member on rfl
    exact absent row member ((wellFormed.toolId_of_on member on).trans form)
  · intro other row member same
    obtain ⟨on, isVersion⟩ := wellFormed.on_of_toolId member legal valid (same.trans form.symm)
    exact other row member on isVersion

/--
What keeps an existing branch from being created again: an illegal name, no fork
point, or a row with the version of the fork point.
-/
def KnowsBranch (rows : List ToolRow) (toolName branchName fromVersion : String) : Prop :=
  branchName = "main" ∨ ¬ LegalBranch branchName ∨
    ∀ base, forkPoint rows toolName fromVersion = some base →
      ∃ row ∈ rows, row.On toolName branchName ∧ row.version = base.version

theorem forks_iff {rows : List ToolRow} (wellFormed : WellFormed rows)
    {toolName branchName fromVersion : String} :
    Forks rows toolName branchName fromVersion ↔
      ¬ KnowsBranch rows toolName branchName fromVersion := by
  unfold Forks KnowsBranch
  push Not
  refine and_congr_right fun notMain => and_congr_right fun legal => exists_congr fun base => ?_
  refine and_congr_right fun fork => ?_
  exact rowById_branchToolId_eq_none_iff wellFormed notMain legal
    (wellFormed.each base (forkPoint_mem fork).1).version

theorem refusesExisting_iff_of_wellFormed (env : Env V) (toolName branchName fromVersion : String)
    {s : StoreState V} (wellFormed : WellFormed s.tools.rows) :
    RefusesExisting env toolName branchName fromVersion s ↔
      ¬ HasBranch s.tools.rows toolName branchName ∨
        KnowsBranch s.tools.rows toolName branchName fromVersion := by
  have known : ¬ Forks s.tools.rows toolName branchName fromVersion ↔
      KnowsBranch s.tools.rows toolName branchName fromVersion := by
    rw [forks_iff wellFormed, not_not]
  rcases createBranch_result env toolName branchName fromVersion s with
    ⟨forks, toolId, done⟩ | ⟨refuses, e, raised, isValueError⟩
  · constructor
    · exact fun guards => .inl (guards.created toolId done)
    · rintro (absent | knows)
      · exact ⟨fun _ _ => absent, fun here => absurd here absent⟩
      · exact absurd forks (known.mpr knows)
  · refine iff_of_true ⟨?_, fun _ => ⟨e, raised, isValueError⟩⟩ (.inr (known.mp refuses))
    intro toolId done
    rw [raised] at done
    cases done

/--
In every reachable state, `create_branch` respects an existing branch exactly if
it has the fork point's version, the fork point is not there or the name is
illegal.
-/
theorem refusesExisting_iff (vecExtension : Option (VecExtension V))
    (actions : List (Env V × Call V)) (env : Env V) (toolName branchName fromVersion : String) :
    RefusesExisting env toolName branchName fromVersion
        (run step (StoreState.empty vecExtension) actions) ↔
      ¬ HasBranch (run step (StoreState.empty vecExtension) actions).tools.rows
          toolName branchName ∨
        KnowsBranch (run step (StoreState.empty vecExtension) actions).tools.rows
          toolName branchName fromVersion :=
  refusesExisting_iff_of_wellFormed env toolName branchName fromVersion
    (reachableState_run vecExtension actions).wellFormed

/-- A branch is there, and `main` has moved on since. -/
def branchedThenAdvanced : List (Env Unit × Call Unit) :=
  [(atTime 1, .upsertTool (plainEntry "0.0.1")),
    (atTime 2, .createBranch "tool" "fix" ""),
    (atTime 3, .createVersion "tool" (plainDefinition "second") "" "patch" "main" "")]

theorem not_refusesExisting_branchedThenAdvanced :
    ¬ RefusesExisting (atTime 4) "tool" "fix" ""
      (run step (StoreState.empty none) branchedThenAdvanced) := by
  intro guards
  have created : (createBranch (atTime 4) "tool" "fix" ""
      (run step (StoreState.empty none) branchedThenAdvanced)).1.toOption =
        some "tool@fix/0.0.2" := by rfl
  have here : (run step (StoreState.empty none) branchedThenAdvanced).tools.rows.any
      (fun row => row.On "tool" "fix") = true := by rfl
  cases result : (createBranch (atTime 4) "tool" "fix" ""
      (run step (StoreState.empty none) branchedThenAdvanced)).1 with
  | error e =>
      rw [result] at created
      cases created
  | ok toolId => exact guards.created toolId result (by simpa [HasBranch] using here)

end YouMi.Mcp.ToolStore
