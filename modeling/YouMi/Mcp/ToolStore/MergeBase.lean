import YouMi.Mcp.ToolStore.Lineage

/-!
# The base of a merge

`merge_branch` takes as its base the row of `main` that the source branch was
forked from.  As long as branches other than `main` grow at their ends, that is
an ancestor of the source head.  It is an ancestor of the target head exactly if
it is one of the row of `main` that the target branch was forked from.
-/

namespace YouMi.Mcp.ToolStore

open YouMi.Core YouMi.Library

variable {V : Type}

/-- No row of the branch is older. -/
def IsFirst (rows : List ToolRow) (row : ToolRow) : Prop :=
  ∀ other ∈ rows, other.On row.toolName row.branch → row.age ≤ other.age

/-- The row's parent is the row of its branch before it. -/
structure IsPrevious (rows : List ToolRow) (row parent : ToolRow) : Prop where
  member : parent ∈ rows
  link : row.parentVersionId = some parent.toolId
  on : parent.On row.toolName row.branch
  older : parent.age < row.age
  newest : ∀ other ∈ rows, other.On row.toolName row.branch → other.age < row.age →
    other.age ≤ parent.age

/-- The row's parent is a row on `main`. -/
def ForkedFromMain (rows : List ToolRow) (row : ToolRow) : Prop :=
  ∃ parent ∈ rows, row.parentVersionId = some parent.toolId ∧ parent.On row.toolName "main"

/-- The row has no parent, or an older one of its tool that is there. -/
def ParentOlder (rows : List ToolRow) (row : ToolRow) : Prop :=
  ∀ parentId, row.parentVersionId = some parentId →
    ∃ parent ∈ rows, parent.toolId = parentId ∧ parent.toolName = row.toolName ∧
      parent.age < row.age

/--
Every branch but `main` is a line of rows that starts below a row of `main`.
On `main`, where an upsert may come below any head, only the first row is a root
for sure.
-/
structure Linear (rows : List ToolRow) : Prop where
  parent : ∀ row ∈ rows, ParentOlder rows row
  next : ∀ row ∈ rows, row.branch ≠ "main" → ¬ IsFirst rows row →
    ∃ parent, IsPrevious rows row parent
  fork : ∀ row ∈ rows, row.branch ≠ "main" → IsFirst rows row → ForkedFromMain rows row
  root : ∀ row ∈ rows, row.branch = "main" → IsFirst rows row → row.parentVersionId = none

section Lines

variable {rows : List ToolRow}

theorem isFirst_oldestOn {toolName branch : String} {first : ToolRow}
    (bottom : oldestOn rows toolName branch = some first) :
    first ∈ rows ∧ first.On toolName branch ∧ IsFirst rows first := by
  obtain ⟨member, on⟩ := mem_branchRows.mp (oldest_mem bottom)
  refine ⟨member, on, fun other here otherOn => ?_⟩
  exact oldest_le bottom (mem_branchRows.mpr
    ⟨here, otherOn.1.trans on.1, otherOn.2.trans on.2⟩)

/-- Where rows off `main` have parents, parents lead back to a root on `main`. -/
theorem exists_root (parent : ∀ row ∈ rows, ParentOlder rows row)
    (away : ∀ row ∈ rows, row.branch ≠ "main" → row.parentVersionId ≠ none) :
    ∀ row ∈ rows, ∃ root ∈ rows, root.On row.toolName "main" ∧ root.age ≤ row.age := by
  intro row
  induction row using (InvImage.wf ToolRow.age wellFounded_lt).induction with
  | _ row ih =>
      intro member
      by_cases main : row.branch = "main"
      · exact ⟨row, member, ⟨rfl, main⟩, le_rfl⟩
      · obtain ⟨parentId, up⟩ := Option.ne_none_iff_exists'.mp (away row member main)
        obtain ⟨above, here, _, tool, older⟩ := parent row member parentId up
        obtain ⟨root, hroot, on, le⟩ := ih above older here
        exact ⟨root, hroot, ⟨on.1.trans tool, on.2⟩, le.trans older.le⟩

theorem Linear.away (linear : Linear rows) (row : ToolRow) (member : row ∈ rows)
    (notMain : row.branch ≠ "main") : row.parentVersionId ≠ none := by
  by_cases first : IsFirst rows row
  · obtain ⟨parent, _, link, _⟩ := linear.fork row member notMain first
    simp [link]
  · obtain ⟨parent, previous⟩ := linear.next row member notMain first
    simp [previous.link]

/-- A tool without rows on `main` has no rows. -/
theorem Linear.no_rows (linear : Linear rows) {toolName : String}
    (absent : newestOn rows toolName "main" = none) {row : ToolRow} (member : row ∈ rows) :
    row.toolName ≠ toolName := by
  rintro rfl
  obtain ⟨root, here, on, _⟩ := exists_root linear.parent linear.away row member
  exact newestOn_eq_none_iff.mp absent root here on

/-! ## What keeps branches lines -/

section Map

variable {change : ToolRow → ToolRow} (keeps : KeepsPlace change)

include keeps

theorem isFirst_map {row : ToolRow} :
    IsFirst (rows.map change) (change row) ↔ IsFirst rows row := by
  unfold IsFirst
  simp only [List.forall_mem_map, keeps.on, keeps.age, keeps.toolName, keeps.branch]

theorem IsPrevious.map {row parent : ToolRow} (previous : IsPrevious rows row parent) :
    IsPrevious (rows.map change) (change row) (change parent) where
  member := List.mem_map_of_mem previous.member
  link := by
    rw [keeps.parentVersionId, keeps.toolId]
    exact previous.link
  on := by
    rw [keeps.on, keeps.toolName, keeps.branch]
    exact previous.on
  older := by
    rw [keeps.age, keeps.age]
    exact previous.older
  newest := by
    simp only [List.forall_mem_map, keeps.on, keeps.age, keeps.toolName, keeps.branch]
    exact previous.newest

theorem ForkedFromMain.map {row : ToolRow} (forked : ForkedFromMain rows row) :
    ForkedFromMain (rows.map change) (change row) := by
  obtain ⟨parent, member, link, on⟩ := forked
  refine ⟨change parent, List.mem_map_of_mem member, ?_, ?_⟩
  · rw [keeps.parentVersionId, keeps.toolId]
    exact link
  · rw [keeps.on, keeps.toolName]
    exact on

theorem ParentOlder.map {row : ToolRow} (older : ParentOlder rows row) :
    ParentOlder (rows.map change) (change row) := by
  intro parentId up
  rw [keeps.parentVersionId] at up
  obtain ⟨parent, member, same, tool, lt⟩ := older parentId up
  refine ⟨change parent, List.mem_map_of_mem member, ?_, ?_, ?_⟩
  · rw [keeps.toolId, same]
  · rw [keeps.toolName, keeps.toolName, tool]
  · rw [keeps.age, keeps.age]
    exact lt

theorem Linear.map (linear : Linear rows) : Linear (rows.map change) where
  parent := by
    intro row member
    obtain ⟨old, hold, rfl⟩ := List.mem_map.mp member
    exact (linear.parent old hold).map keeps
  next := by
    intro row member notMain notFirst
    obtain ⟨old, hold, rfl⟩ := List.mem_map.mp member
    rw [isFirst_map keeps] at notFirst
    rw [keeps.branch] at notMain
    obtain ⟨parent, previous⟩ := linear.next old hold notMain notFirst
    exact ⟨change parent, previous.map keeps⟩
  fork := by
    intro row member notMain first
    obtain ⟨old, hold, rfl⟩ := List.mem_map.mp member
    rw [isFirst_map keeps] at first
    rw [keeps.branch] at notMain
    exact (linear.fork old hold notMain first).map keeps
  root := by
    intro row member main first
    obtain ⟨old, hold, rfl⟩ := List.mem_map.mp member
    rw [isFirst_map keeps] at first
    rw [keeps.branch] at main
    rw [keeps.parentVersionId]
    exact linear.root old hold main first

end Map

/-- A new row that comes last of its tool and carries its branch on, or starts it. -/
structure Joins (rows : List ToolRow) (row : ToolRow) : Prop where
  fresh : Fresh rows row
  later : ∀ old ∈ rows, old.toolName = row.toolName → old.createdAt ≤ row.createdAt
  parentIn : ParentIn rows row
  follows : row.branch ≠ "main" → ∀ top, newestOn rows row.toolName row.branch = some top →
    row.parentVersionId = some top.toolId
  forked : row.branch ≠ "main" → newestOn rows row.toolName row.branch = none →
    ForkedFromMain rows row
  root : row.branch = "main" → newestOn rows row.toolName row.branch = none →
    row.parentVersionId = none

theorem Joins.map {change : ToolRow → ToolRow} (keeps : KeepsPlace change) {row : ToolRow}
    (joins : Joins rows row) : Joins (rows.map change) row where
  fresh := by
    constructor
    · simp only [List.forall_mem_map, keeps.toolId]
      exact joins.fresh.toolId
    · simp only [List.forall_mem_map, keeps.id]
      exact joins.fresh.id
  later := by
    simp only [List.forall_mem_map, keeps.toolName, keeps.createdAt]
    exact joins.later
  parentIn := joins.parentIn.map keeps
  follows := by
    intro notMain top isTop
    rw [keeps.newestOn] at isTop
    obtain ⟨old, isOld, rfl⟩ := Option.map_eq_some_iff.mp isTop
    rw [keeps.toolId]
    exact joins.follows notMain old isOld
  forked := by
    intro notMain absent
    rw [keeps.newestOn, Option.map_eq_none_iff] at absent
    obtain ⟨parent, member, link, on⟩ := joins.forked notMain absent
    refine ⟨change parent, List.mem_map_of_mem member, ?_, ?_⟩
    · rw [keeps.toolId, link]
    · rw [keeps.on]
      exact on
  root := by
    intro main absent
    rw [keeps.newestOn, Option.map_eq_none_iff] at absent
    exact joins.root main absent

theorem Joins.older {row : ToolRow} (joins : Joins rows row) {old : ToolRow} (member : old ∈ rows)
    (tool : old.toolName = row.toolName) : old.age < row.age :=
  (joins.fresh.age_lt_iff member).mpr (joins.later old member tool)

theorem Joins.isFirst_old {row : ToolRow} (joins : Joins rows row) {old : ToolRow}
    (member : old ∈ rows) : IsFirst (rows ++ [row]) old ↔ IsFirst rows old := by
  constructor
  · exact fun first other here => first other (List.mem_append_left _ here)
  · intro first other here on
    rcases List.mem_append.mp here with inside | new
    · exact first other inside on
    · rw [List.mem_singleton.mp new] at on ⊢
      exact (joins.older member on.1.symm).le

/-- The new row is the first of its branch exactly if it starts it. -/
theorem Joins.isFirst_new {row : ToolRow} (joins : Joins rows row) :
    IsFirst (rows ++ [row]) row ↔ newestOn rows row.toolName row.branch = none := by
  rw [newestOn_eq_none_iff]
  constructor
  · intro first old member on
    exact absurd (first old (List.mem_append_left _ member) on)
      (not_le_of_gt (joins.older member on.1))
  · intro absent other here on
    rcases List.mem_append.mp here with old | new
    · exact absurd on (absent other old)
    · rw [List.mem_singleton.mp new]

theorem ForkedFromMain.append {old : ToolRow} (forked : ForkedFromMain rows old) (row : ToolRow) :
    ForkedFromMain (rows ++ [row]) old := by
  obtain ⟨parent, member, link, on⟩ := forked
  exact ⟨parent, List.mem_append_left _ member, link, on⟩

theorem IsPrevious.append {old parent row : ToolRow} (previous : IsPrevious rows old parent)
    (notBefore : row.On old.toolName old.branch → ¬ row.age < old.age) :
    IsPrevious (rows ++ [row]) old parent :=
  { previous with
    member := List.mem_append_left _ previous.member
    newest := by
      intro other here on lt
      rcases List.mem_append.mp here with before | new
      · exact previous.newest other before on lt
      · rw [List.mem_singleton.mp new] at on lt
        exact absurd lt (notBefore on) }

theorem Joins.isPrevious {row top : ToolRow} (joins : Joins rows row) (notMain : row.branch ≠ "main")
    (isTop : newestOn rows row.toolName row.branch = some top) : IsPrevious rows row top where
  member := (newestOn_mem isTop).1
  link := joins.follows notMain top isTop
  on := (newestOn_mem isTop).2
  older := joins.older (newestOn_mem isTop).1 (newestOn_mem isTop).2.1
  newest := fun _ here on _ => le_newestOn isTop here on

theorem Linear.append {row : ToolRow} (linear : Linear rows) (joins : Joins rows row) :
    Linear (rows ++ [row]) where
  parent := by
    intro other member parentId up
    rcases List.mem_append.mp member with old | new
    · obtain ⟨parent, here, above⟩ := linear.parent other old parentId up
      exact ⟨parent, List.mem_append_left _ here, above⟩
    · rw [List.mem_singleton.mp new] at up ⊢
      obtain ⟨parent, here, same, tool⟩ := joins.parentIn parentId up
      exact ⟨parent, List.mem_append_left _ here, same, tool, joins.older here tool⟩
  next := by
    intro other member notMain notFirst
    rcases List.mem_append.mp member with old | new
    · rw [joins.isFirst_old old] at notFirst
      obtain ⟨parent, previous⟩ := linear.next other old notMain notFirst
      exact ⟨parent, previous.append fun on => (joins.older old on.1.symm).not_gt⟩
    · rw [List.mem_singleton.mp new] at notMain notFirst ⊢
      rw [joins.isFirst_new] at notFirst
      obtain ⟨top, isTop⟩ := Option.ne_none_iff_exists'.mp notFirst
      exact ⟨top, (joins.isPrevious notMain isTop).append fun _ => lt_irrefl _⟩
  fork := by
    intro other member notMain first
    rcases List.mem_append.mp member with old | new
    · exact (linear.fork other old notMain ((joins.isFirst_old old).mp first)).append row
    · rw [List.mem_singleton.mp new] at notMain first ⊢
      exact (joins.forked notMain (joins.isFirst_new.mp first)).append row
  root := by
    intro other member main first
    rcases List.mem_append.mp member with old | new
    · exact linear.root other old main ((joins.isFirst_old old).mp first)
    · rw [List.mem_singleton.mp new] at main first ⊢
      exact joins.root main (joins.isFirst_new.mp first)

section Delete

variable {toolName version : String} (noParent : DeletesNoParent rows toolName version)

include noParent

theorem ParentOlder.delete {row : ToolRow} (member : row ∈ rows)
    (stays : Stays toolName version row) (older : ParentOlder rows row) :
    ParentOlder (rows.filter fun row => !selects toolName version row) row := by
  intro parentId up
  obtain ⟨parent, hparent, rfl, above⟩ := older parentId up
  exact ⟨parent, mem_deleted_iff.mpr ⟨hparent, noParent row member stays parent hparent up⟩, rfl,
    above⟩

theorem IsPrevious.delete {row parent : ToolRow} (member : row ∈ rows)
    (stays : Stays toolName version row) (previous : IsPrevious rows row parent) :
    IsPrevious (rows.filter fun row => !selects toolName version row) row parent :=
  { previous with
    member := mem_deleted_iff.mpr
      ⟨previous.member, noParent row member stays parent previous.member previous.link⟩
    newest := fun other here => previous.newest other (mem_deleted_iff.mp here).1 }

/-- Off `main`, the first of the rows that stay was the first before: its predecessor would stay. -/
theorem IsFirst.of_delete {row : ToolRow} (linear : Linear rows) (member : row ∈ rows) (notMain : row.branch ≠ "main")
    (stays : Stays toolName version row)
    (first : IsFirst (rows.filter fun row => !selects toolName version row) row) :
    IsFirst rows row := by
  by_contra notFirst
  obtain ⟨parent, previous⟩ := linear.next row member notMain notFirst
  have left := IsPrevious.delete noParent member stays previous
  exact absurd (first parent left.member left.on) (not_le_of_gt left.older)

theorem Linear.delete (linear : Linear rows) :
    Linear (rows.filter fun row => !selects toolName version row) where
  parent := by
    intro row hrow
    obtain ⟨member, stays⟩ := mem_deleted_iff.mp hrow
    exact ParentOlder.delete noParent member stays (linear.parent row member)
  next := by
    intro row hrow notMain notFirst
    obtain ⟨member, stays⟩ := mem_deleted_iff.mp hrow
    obtain ⟨parent, previous⟩ := linear.next row member notMain fun first =>
      notFirst fun other here => first other (mem_deleted_iff.mp here).1
    exact ⟨parent, IsPrevious.delete noParent member stays previous⟩
  fork := by
    intro row hrow notMain first
    obtain ⟨member, stays⟩ := mem_deleted_iff.mp hrow
    obtain ⟨parent, hparent, link, on⟩ := linear.fork row member notMain
      (IsFirst.of_delete noParent linear member notMain stays first)
    exact ⟨parent, mem_deleted_iff.mpr
      ⟨hparent, noParent row member stays parent hparent link⟩, link, on⟩
  root := by
    -- A parent would stay too, and lead back to a root on `main` older than the first row.
    intro row hrow main first
    rw [Option.eq_none_iff_forall_ne_some]
    intro parentId up
    have older : ∀ row ∈ rows.filter fun row => !selects toolName version row,
        ParentOlder (rows.filter fun row => !selects toolName version row) row := by
      intro row here
      obtain ⟨member, stays⟩ := mem_deleted_iff.mp here
      exact ParentOlder.delete noParent member stays (linear.parent row member)
    obtain ⟨parent, hparent, _, tool, lt⟩ := older row hrow parentId up
    obtain ⟨root, hroot, on, le⟩ := exists_root older
      (fun row here => linear.away row (mem_deleted_iff.mp here).1) parent hparent
    exact absurd (first root hroot ⟨on.1.trans tool, on.2.trans main.symm⟩)
      (not_le_of_gt (le.trans_lt lt))

end Delete

end Lines

/-! ## Runs -/

/-- A `create_branch` that inserts a row starts a branch that has none. -/
def StartsBranch (s : StoreState V) (action : Env V × Call V) : Prop :=
  match action.2 with
  | .createBranch toolName branchName _ =>
      insertedRow s action ≠ none → ¬ HasBranch s.tools.rows toolName branchName
  | _ => True

/--
No row is inserted before one of its tool, no branch is created that exists, and
a deletion leaves no child of a row it removes.
-/
structure Orderly (s : StoreState V) (action : Env V × Call V) : Prop where
  clock : ∀ row ∈ insertedRow s action, ∀ old ∈ s.tools.rows, old.toolName = row.toolName →
    old.createdAt ≤ row.createdAt
  startsBranch : StartsBranch s action
  keepsParents : KeepsParents s action

section Calls

variable {env : Env V} {s : StoreState V} {call : Call V}

/-- How a row that a call inserts starts a branch without rows. -/
theorem Makes.starts {rows : List ToolRow} {row : ToolRow} (made : Makes env rows call row)
    (linear : Linear rows) (absent : newestOn rows row.toolName row.branch = none) :
    (row.branch ≠ "main" → ForkedFromMain rows row) ∧
      (row.branch = "main" → row.parentVersionId = none) := by
  cases made with
  | @upsert entry =>
      refine ⟨fun notMain => absurd rfl notMain, fun _ => ?_⟩
      have none_flagged : flaggedHead rows entry.toolName = none :=
        flaggedHead_eq_none_iff.mpr fun row member on =>
          absurd on (newestOn_eq_none_iff.mp absent row member)
      have no_rows : newestOfTool rows entry.toolName = none :=
        newestOfTool_eq_none_iff.mpr fun row member => linear.no_rows absent member
      dsimp only [upsertRow]
      rw [none_flagged, no_rows]
      rfl
  | version commits top => exact absurd (top.symm.trans absent) (by simp)
  | @branch _ _ _ base notMain _ fork =>
      obtain ⟨member, _, onMain⟩ := forkPoint_mem fork
      exact ⟨fun _ => ⟨base, member, rfl, rfl, onMain⟩, fun main => absurd main notMain⟩
  | promotion _ _ _ flagged =>
      obtain ⟨member, on, _⟩ := flaggedHead_mem flagged
      exact absurd on (newestOn_eq_none_iff.mp absent _ member)

/-- Off `main`, a row inserted above others has the newest as its parent. -/
theorem Makes.follows {rows : List ToolRow} {row top : ToolRow} (made : Makes env rows call row)
    (starts : ∀ toolName branchName fromVersion,
      call = .createBranch toolName branchName fromVersion → ¬ HasBranch rows toolName branchName)
    (notMain : row.branch ≠ "main") (isTop : newestOn rows row.toolName row.branch = some top) :
    row.parentVersionId = some top.toolId := by
  cases made with
  | upsert => exact absurd rfl notMain
  | version commits newest =>
      rw [← Option.some.inj (newest.symm.trans isTop)]
      rfl
  | @branch toolName branchName fromVersion base _ _ fork =>
      obtain ⟨_, same, _⟩ := forkPoint_mem fork
      have taken : HasBranch rows base.toolName branchName := ⟨top, newestOn_mem isTop⟩
      rw [same] at taken
      exact absurd taken (starts toolName branchName fromVersion rfl)
  | promotion => exact absurd rfl notMain

theorem joins_of_newRow {row : ToolRow} (new : newRow env s call = some row)
    (linear : Linear s.tools.rows) (fresh : Fresh s.tools.rows (stored s.tools row))
    (later : ∀ old ∈ s.tools.rows, old.toolName = row.toolName → old.createdAt ≤ row.createdAt)
    (starts : ∀ toolName branchName fromVersion,
      call = .createBranch toolName branchName fromVersion →
        ¬ HasBranch s.tools.rows toolName branchName) :
    Joins s.tools.rows (stored s.tools row) where
  fresh := fresh
  later := later
  parentIn := (makes_of_newRow new).1.parentIn
  follows := fun notMain _ isTop => (makes_of_newRow new).1.follows starts notMain isTop
  forked := fun notMain absent => ((makes_of_newRow new).1.starts linear absent).1 notMain
  root := fun main absent => ((makes_of_newRow new).1.starts linear absent).2 main

theorem RowsAfter.linear {next : List ToolRow} (after : RowsAfter env s call next)
    (linear : Linear s.tools.rows)
    (later : ∀ row ∈ newRow env s call, ∀ old ∈ s.tools.rows, old.toolName = row.toolName →
      old.createdAt ≤ row.createdAt)
    (starts : newRow env s call ≠ none → ∀ toolName branchName fromVersion,
      call = .createBranch toolName branchName fromVersion →
        ¬ HasBranch s.tools.rows toolName branchName)
    (noOrphan : ∀ toolName version, call = .deleteTool toolName version →
      DeletesNoParent s.tools.rows toolName version) : Linear next := by
  cases after with
  | same => exact linear
  | reupsert => exact linear.map (reupsert_keepsPlace _)
  | delete => exact Linear.delete (noOrphan _ _ rfl) linear
  | @insert _ row new fresh =>
      have keeps := makeRoom_keepsPlace (stored s.tools row)
      have joins := joins_of_newRow new linear fresh (later row new) (starts (by simp [new]))
      exact (linear.map keeps).append (joins.map keeps)

end Calls

theorem step_linear (s : StoreState V) (action : Env V × Call V) (linear : Linear s.tools.rows)
    (orderly : Orderly s action) : Linear (step s action).tools.rows := by
  obtain ⟨env, call⟩ := action
  obtain ⟨change, relabels, rows⟩ := marked_rows s call
  have keeps := relabels.toKeepsPlace
  refine (step_rows s (env, call)).linear ?_ ?_ ?_ ?_
  · rw [rows]
    exact linear.map keeps
  · intro row new
    rw [rows]
    simp only [List.forall_mem_map, keeps.toolName, keeps.createdAt]
    exact orderly.clock row new
  · rintro inserts toolName branchName fromVersion rfl
    exact orderly.startsBranch inserts
  · rintro toolName version rfl
    exact orderly.keepsParents

theorem linear_empty (vecExtension : Option (VecExtension V)) :
    Linear (StoreState.empty vecExtension).tools.rows := by
  constructor <;> simp [StoreState.empty]

theorem linear_run (vecExtension : Option (VecExtension V)) {actions : List (Env V × Call V)}
    (orderly : StepsMeet step Orderly (StoreState.empty vecExtension) actions) :
    Linear (run step (StoreState.empty vecExtension) actions).tools.rows :=
  (throughout_of_stepsMeet (fun s => Linear s.tools.rows) step_linear (linear_empty vecExtension)
    orderly).final

/-! ## The base of a merge -/

/-- The row a branch was forked from. -/
def forkedFrom (rows : List ToolRow) (toolName branch : String) : Option ToolRow :=
  ((oldestOn rows toolName branch).bind ToolRow.parentVersionId).bind (rowById rows)

/-- The row of `main` below which a branch grows; the head of `main` for `main` itself. -/
def trunk (rows : List ToolRow) (toolName branch : String) : Option ToolRow :=
  if branch = "main" then newestOn rows toolName "main" else forkedFrom rows toolName branch

/-- Every row of the tool's `main` but the first has the one before it as its parent. -/
def MainLine (rows : List ToolRow) (toolName : String) : Prop :=
  ∀ row ∈ rows, row.On toolName "main" → ¬ IsFirst rows row → ∃ parent, IsPrevious rows row parent

/-- What a merge reads, where it finds all of it. -/
theorem mergeInputs_eq_ok_iff {rows : List ToolRow} {toolName source target : String}
    {base ours theirs : ToolRow} :
    mergeInputs rows toolName source target = .ok (base, ours, theirs) ↔
      newestOn rows toolName source = some theirs ∧ newestOn rows toolName target = some ours ∧
        ∃ baseId, (oldestOn rows toolName source).bind ToolRow.parentVersionId = some baseId ∧
          baseId ≠ "" ∧ rowById rows baseId = some base := by
  constructor
  · intro inputs
    unfold mergeInputs at inputs
    split at inputs
    · cases inputs
    · rename_i theirs' isTheirs
      split at inputs
      · cases inputs
      · rename_i ours' isOurs
        split at inputs
        · cases inputs
        · rename_i baseId isBase
          split at inputs
          · cases inputs
          · rename_i named
            split at inputs
            · cases inputs
            · rename_i base' found
              cases inputs
              exact ⟨isTheirs, isOurs, baseId, isBase, named, found⟩
  · rintro ⟨isTheirs, isOurs, baseId, isBase, named, found⟩
    rw [mergeInputs, isTheirs, isOurs, isBase]
    dsimp only
    rw [if_neg named, found]

theorem mergeInputs_eq_ok {rows : List ToolRow} {toolName source target : String}
    {base ours theirs : ToolRow}
    (inputs : mergeInputs rows toolName source target = .ok (base, ours, theirs)) :
    newestOn rows toolName source = some theirs ∧ newestOn rows toolName target = some ours ∧
      forkedFrom rows toolName source = some base := by
  obtain ⟨isTheirs, isOurs, baseId, isBase, _, found⟩ := mergeInputs_eq_ok_iff.mp inputs
  exact ⟨isTheirs, isOurs, by rw [forkedFrom, isBase]; exact found⟩

section Ancestors

variable {table : ToolTable} (linear : Linear table.rows)

theorem follows_of_parent {row parent : ToolRow} (member : row ∈ table.rows)
    (here : parent ∈ table.rows) (link : row.parentVersionId = some parent.toolId) :
    (links table.rows).Follows row.toolId parent.toolId :=
  ⟨mem_links.mpr ⟨row, member, rfl, link⟩, present_links.mpr ⟨parent, here, rfl⟩⟩

theorem rowById_self {row : ToolRow} (member : row ∈ table.rows) :
    rowById table.rows row.toolId = some row := by
  cases found : rowById table.rows row.toolId with
  | none => exact absurd rfl (rowById_eq_none_iff.mp found row member)
  | some other =>
      obtain ⟨here, same⟩ := rowById_mem found
      rw [RowTable.eq_of_uniqueKey here member same]

/-- On a branch that is a line, later rows descend from earlier ones. -/
theorem descends_of_branch {toolName branch : String}
    (line : ∀ row ∈ table.rows, row.On toolName branch → ¬ IsFirst table.rows row →
      ∃ parent, IsPrevious table.rows row parent)
    {row ancestor : ToolRow} (member : row ∈ table.rows) (on : row.On toolName branch)
    (here : ancestor ∈ table.rows) (ancestorOn : ancestor.On toolName branch)
    (le : ancestor.age ≤ row.age) :
    (links table.rows).Descends row.toolId ancestor.toolId := by
  refine ParentLinks.descends_of_line ToolRow.age
    (fun row => row ∈ table.rows ∧ row.On toolName branch) ?_ ?_ ⟨here, ancestorOn⟩ row
    ⟨member, on⟩ le
  · exact fun first second onFirst onSecond =>
      age_injective table first onFirst.1 second onSecond.1
  · rintro node ⟨inside, onNode⟩ ⟨older, ⟨hold, oldOn⟩, lt⟩
    obtain ⟨parent, previous⟩ := line node inside onNode fun first =>
      absurd (first older hold ⟨oldOn.1.trans onNode.1.symm, oldOn.2.trans onNode.2.symm⟩)
        (not_le_of_gt lt)
    have parentOn : parent.On toolName branch :=
      ⟨previous.on.1.trans onNode.1, previous.on.2.trans onNode.2⟩
    refine ⟨parent, ⟨previous.member, parentOn⟩, previous.older,
      follows_of_parent inside previous.member previous.link, fun other onLine => ?_⟩
    exact previous.newest other onLine.1
      ⟨onLine.2.1.trans onNode.1.symm, onLine.2.2.trans onNode.2.symm⟩

include linear

/-- Ancestors are not newer. -/
theorem Linear.age_le_of_descends {row ancestor : ToolRow} (member : row ∈ table.rows)
    (here : ancestor ∈ table.rows)
    (path : (links table.rows).Descends row.toolId ancestor.toolId) :
    ancestor.age ≤ row.age := by
  have closed : ∀ child parentId,
      (∃ other ∈ table.rows, other.toolId = child ∧ other.age ≤ row.age) →
        (links table.rows).Follows child parentId →
          ∃ other ∈ table.rows, other.toolId = parentId ∧ other.age ≤ row.age := by
    rintro child parentId ⟨other, hother, rfl, le⟩ ⟨up, _⟩
    obtain ⟨twin, htwin, same, link⟩ := mem_links.mp up
    obtain rfl := RowTable.eq_of_uniqueKey htwin hother same
    obtain ⟨parent, hparent, isParent, _, older⟩ := linear.parent twin htwin parentId link
    exact ⟨parent, hparent, isParent, older.le.trans le⟩
  obtain ⟨other, hother, same, le⟩ := path.confined _ closed ⟨row, member, rfl, le_rfl⟩
  rwa [RowTable.eq_of_uniqueKey hother here same] at le

/-- The head of a branch other than `main` descends from the row of `main` it was forked from. -/
theorem Linear.forkedFrom_of_branch {toolName branch : String} {head : ToolRow}
    (top : newestOn table.rows toolName branch = some head) (notMain : branch ≠ "main") :
    ∃ fork ∈ table.rows, forkedFrom table.rows toolName branch = some fork ∧
      fork.On toolName "main" ∧ (links table.rows).Descends head.toolId fork.toolId := by
  obtain ⟨member, on⟩ := newestOn_mem top
  obtain ⟨first, bottom⟩ := exists_oldestOn member on
  obtain ⟨here, firstOn, isFirst⟩ := isFirst_oldestOn bottom
  obtain ⟨fork, hfork, link, onMain⟩ :=
    linear.fork first here (by rw [firstOn.2]; exact notMain) isFirst
  have path := descends_of_branch
    (fun row inside onBranch => linear.next row inside (by rw [onBranch.2]; exact notMain))
    member on here firstOn
    (isFirst head member ⟨on.1.trans firstOn.1.symm, on.2.trans firstOn.2.symm⟩)
  refine ⟨fork, hfork, ?_, ⟨onMain.1.trans firstOn.1, onMain.2⟩, ?_⟩
  · rw [forkedFrom, bottom, Option.bind_some, link, Option.bind_some, rowById_self hfork]
  · exact path.tail (follows_of_parent here hfork link)

/-- What is above the head of a branch is on the branch, or above its fork point. -/
theorem Linear.on_or_above {toolName branch : String} {head fork : ToolRow}
    (top : newestOn table.rows toolName branch = some head) (notMain : branch ≠ "main")
    (isFork : forkedFrom table.rows toolName branch = some fork) {ancestor : String}
    (path : (links table.rows).Descends head.toolId ancestor) :
    (∃ row ∈ table.rows, row.toolId = ancestor ∧ row.On toolName branch) ∨
      (links table.rows).Descends fork.toolId ancestor := by
  obtain ⟨member, on⟩ := newestOn_mem top
  refine path.confined
    (fun toolId => (∃ row ∈ table.rows, row.toolId = toolId ∧ row.On toolName branch) ∨
      (links table.rows).Descends fork.toolId toolId) ?_ (.inl ⟨head, member, rfl, on⟩)
  rintro child parentId (⟨row, hrow, rfl, onBranch⟩ | below) link
  · obtain ⟨twin, htwin, same, up⟩ := mem_links.mp link.1
    obtain rfl := RowTable.eq_of_uniqueKey htwin hrow same
    by_cases rowFirst : IsFirst table.rows twin
    · -- The first row of the branch is the one the fork point was found through.
      obtain ⟨first, bottom, found⟩ : ∃ first, oldestOn table.rows toolName branch = some first ∧
          first.parentVersionId.bind (rowById table.rows) = some fork := by
        obtain ⟨first, bottom⟩ := exists_oldestOn member on
        exact ⟨first, bottom, by rwa [forkedFrom, bottom] at isFork⟩
      obtain ⟨here, firstOn, isFirst⟩ := isFirst_oldestOn bottom
      have isRow : twin = first := age_injective table twin hrow first here (le_antisymm
        (rowFirst first here ⟨firstOn.1.trans onBranch.1.symm, firstOn.2.trans onBranch.2.symm⟩)
        (isFirst twin hrow ⟨onBranch.1.trans firstOn.1.symm, onBranch.2.trans firstOn.2.symm⟩))
      rw [← isRow, up] at found
      rw [(rowById_mem found).2]
      exact .inr .refl
    · obtain ⟨previous, isPrevious⟩ :=
        linear.next twin hrow (by rw [onBranch.2]; exact notMain) rowFirst
      rw [isPrevious.link] at up
      exact .inl ⟨previous, isPrevious.member, Option.some.inj up,
        isPrevious.on.1.trans onBranch.1, isPrevious.on.2.trans onBranch.2⟩
  · exact .inr (below.tail link)

/-- Above a branch head there are just those rows of `main` that are above the trunk. -/
theorem Linear.descends_iff_trunk {toolName branch : String} {head ancestor : ToolRow}
    (top : newestOn table.rows toolName branch = some head) (here : ancestor ∈ table.rows)
    (onMain : ancestor.On toolName "main") :
    ∃ row ∈ table.rows, trunk table.rows toolName branch = some row ∧ row.On toolName "main" ∧
      ((links table.rows).Descends head.toolId ancestor.toolId ↔
        (links table.rows).Descends row.toolId ancestor.toolId) := by
  unfold trunk
  split
  · rename_i main
    subst main
    exact ⟨head, (newestOn_mem top).1, top, (newestOn_mem top).2, Iff.rfl⟩
  · rename_i notMain
    obtain ⟨fork, hfork, isFork, forkOn, path⟩ := linear.forkedFrom_of_branch top notMain
    refine ⟨fork, hfork, isFork, forkOn, fun above => ?_, path.trans⟩
    rcases linear.on_or_above top notMain isFork above with ⟨row, hrow, same, on⟩ | below
    · rw [RowTable.eq_of_uniqueKey hrow here same] at on
      exact absurd (on.2.symm.trans onMain.2) notMain
    · exact below

/-- Without another parent, `main` has no fork point. -/
theorem Linear.forkedFrom_main (toolName : String) :
    forkedFrom table.rows toolName "main" = none := by
  unfold forkedFrom
  cases bottom : oldestOn table.rows toolName "main" with
  | none => rfl
  | some first =>
      obtain ⟨here, on, isFirst⟩ := isFirst_oldestOn bottom
      rw [Option.bind_some, linear.root first here on.2 isFirst]
      rfl

end Ancestors

theorem mergeInputs_of_committed {env : Env V} {toolName source target toolId : String}
    {s : StoreState V} (committed : (mergeBranch env toolName source target s).1 = .ok toolId) :
    ∃ base ours theirs,
      mergeInputs s.tools.rows toolName source target = .ok (base, ours, theirs) := by
  unfold mergeBranch at committed
  split at committed
  · cases committed
  · rename_i base ours theirs inputs
    exact ⟨base, ours, theirs, inputs⟩

/-- How the base of a merge is related to the two heads. -/
structure BaseSound (rows : List ToolRow) (toolName target : String)
    (base ours theirs : ToolRow) : Prop where
  source : (links rows).Descends theirs.toolId base.toolId
  target : ∃ start, trunk rows toolName target = some start ∧
    ((links rows).Descends ours.toolId base.toolId ↔
      (links rows).Descends start.toolId base.toolId) ∧
    (MainLine rows toolName →
      ((links rows).Descends ours.toolId base.toolId ↔ base.age ≤ start.age))

theorem Linear.baseSound {table : ToolTable} (linear : Linear table.rows)
    {toolName source target : String} {base ours theirs : ToolRow}
    (inputs : mergeInputs table.rows toolName source target = .ok (base, ours, theirs)) :
    BaseSound table.rows toolName target base ours theirs := by
  obtain ⟨isTheirs, isOurs, isBase⟩ := mergeInputs_eq_ok inputs
  have notMain : source ≠ "main" := by
    rintro rfl
    rw [linear.forkedFrom_main] at isBase
    cases isBase
  obtain ⟨fork, hbase, isFork, baseOn, path⟩ := linear.forkedFrom_of_branch isTheirs notMain
  obtain rfl := Option.some.inj (isBase.symm.trans isFork)
  obtain ⟨start, hstart, isStart, startOn, same⟩ := linear.descends_iff_trunk isOurs hbase baseOn
  refine ⟨path, start, isStart, same, fun line => ?_⟩
  rw [same]
  exact ⟨linear.age_le_of_descends hstart hbase,
    fun le => descends_of_branch line hstart startOn hbase baseOn le⟩

/-- A branch is forked and advanced, and a lower version is registered meanwhile. -/
def forkedWhileLow : List (Env Unit × Call Unit) :=
  [(atTime 1, .upsertTool (plainEntry "1.0.0")),
    (atTime 2, .createBranch "tool" "fix" ""),
    (atTime 3, .createVersion "tool" (plainDefinition "second") "" "patch" "fix" ""),
    (atTime 4, .upsertTool (plainEntry "0.5.0"))]

theorem orderly_forkedWhileLow :
    StepsMeet step Orderly (StoreState.empty none) forkedWhileLow := by
  refine ⟨⟨?_, trivial, trivial⟩, ⟨?_, fun _ => ?_, trivial⟩, ⟨?_, trivial, trivial⟩,
    ⟨?_, trivial, trivial⟩, trivial⟩ <;> decide

/-- Every merge that commits has as its base an ancestor of both heads. -/
def MergesFromCommonBases (s : StoreState V) : Prop :=
  ∀ (env : Env V) (toolName source target toolId : String),
    (mergeBranch env toolName source target s).1 = .ok toolId →
      ∃ base ours theirs,
        mergeInputs s.tools.rows toolName source target = .ok (base, ours, theirs) ∧
        (links s.tools.rows).Descends theirs.toolId base.toolId ∧
        (links s.tools.rows).Descends ours.toolId base.toolId

/-- A branch is forked after the version from which another one was forked. -/
def forkedLater : List (Env Unit × Call Unit) :=
  [(atTime 1, .upsertTool (plainEntry "0.0.1")),
    (atTime 2, .createBranch "tool" "early" ""),
    (atTime 3, .createVersion "tool" (plainDefinition "second") "" "patch" "main" ""),
    (atTime 4, .createBranch "tool" "late" "")]

end YouMi.Mcp.ToolStore
