import YouMi.Library.OrderedDict
import YouMi.Mcp.ToolStore.VersionChains

/-!
# The version tree of a tool

`get_version_tree` groups the rows of a lineage by branch, `get_version_chain` lists
those of `main` from the newest on, and `get_root_version` and `get_head_version` take
the ends.  The four agree as long as every tool has its own name as its lineage and no
branch has the empty name, which the tree takes for `main`.
-/

namespace YouMi.Mcp.ToolStore

open YouMi.Core YouMi.Library

variable {V : Type}

structure ToolVersion where
  version : String
  parentVersionId : Option String
  definition : ToolDefinition
  createdAt : Nat
  changelog : String
  branch : String
  isHead : Bool
  diffPatch : Option DictDiff
  stage : VersionStage

section Queries

variable (changelogOf : String → String) (rows : List ToolRow)

/-- The version of a row; `changelogOf` joins the changelogs of an identifier. -/
def ToolRow.toVersion (row : ToolRow) : ToolVersion where
  version := row.version
  parentVersionId := row.parentVersionId
  definition := row.definition
  createdAt := row.createdAt
  changelog := changelogOf row.toolId
  branch := orElse row.branch "main"
  isHead := row.isHead
  diffPatch := row.diffPatch
  stage := stageOf row.version

/-- The rows of a lineage; for an unknown lineage, those of the tool so named. -/
def lineageRows (lineageId : String) : List ToolRow :=
  let found := rows.filter fun row => row.lineageId = lineageId
  if found = [] then rows.filter fun row => row.toolName = lineageId else found

/-- `tree.setdefault(branch, []).append(version)`. -/
def addVersion : OrderedDict String (List ToolVersion) → ToolVersion →
    OrderedDict String (List ToolVersion) :=
  OrderedDict.gather ToolVersion.branch [] fun versions version => versions ++ [version]

def getVersionTree (lineageId : String) : OrderedDict String (List ToolVersion) :=
  ((oldestFirst ToolRow.age (lineageRows rows lineageId)).map
    (ToolRow.toVersion changelogOf)).foldl addVersion []

def getVersionChain (toolName : String) : List ToolVersion :=
  (newestFirst ToolRow.age (branchRows rows toolName "main")).map (ToolRow.toVersion changelogOf)

/-- The main row of a lineage created first; for an unknown lineage, that of the tool so named. -/
def lineageRoot (lineageId : String) : Option ToolRow :=
  (oldest ToolRow.age
      (rows.filter fun row => row.lineageId = lineageId ∧ row.branch = "main")).or
    (oldestOn rows lineageId "main")

end Queries

def getRootVersion (s : StoreState V) (lineageId : String) : Option (ToolEntry V) :=
  (lineageRoot s.tools.rows lineageId).map (rowToEntry s)

def getHeadVersion (s : StoreState V) (lineageId : String) : Option (ToolEntry V) :=
  (lineageHead s.tools.rows lineageId).map (rowToEntry s)

/-! ## Runs in which every tool is its own lineage -/

/-- The call gives no lineage but the tool's name, and names no branch with the empty text. -/
def Ordinary : Call V → Prop
  | .upsertTool entry => entry.lineageId = "" ∨ entry.lineageId = entry.toolName
  | .createBranch _ branchName _ => branchName ≠ ""
  | _ => True

structure OwnLineage (row : ToolRow) : Prop where
  lineageId : row.lineageId = row.toolName
  branch : row.branch ≠ ""

theorem orElse_own {lineageId toolName : String} (own : lineageId = "" ∨ lineageId = toolName) :
    orElse lineageId toolName = toolName := by
  unfold orElse
  split
  · rfl
  · rename_i given
    exact own.resolve_left given

theorem Makes.ownLineage {env : Env V} {rows : List ToolRow} {call : Call V} {row : ToolRow}
    (made : Makes env rows call row) (ordinary : Ordinary call)
    (own : ∀ old ∈ rows, OwnLineage old) : OwnLineage row := by
  have main : "main" ≠ "" := by decide
  cases made with
  | upsert => exact ⟨orElse_own ordinary, main⟩
  | version _ top =>
      obtain ⟨member, on⟩ := newestOn_mem top
      have old := own _ member
      exact ⟨old.lineageId.trans on.1, fun empty => old.branch (on.2.trans empty)⟩
  | branch _ _ fork => exact ⟨(own _ (forkPoint_mem fork).1).lineageId, ordinary⟩
  | @promotion _ toolName head _ _ _ found =>
      refine ⟨?_, main⟩
      have isHead : head ∈ rows ∧ head.lineageId = toolName := by
        rcases Option.or_eq_some_iff.mp found with found | ⟨_, found⟩
        · obtain ⟨member, selected⟩ := List.mem_filter.mp (newest_mem found)
          exact ⟨member, (of_decide_eq_true selected).1⟩
        · obtain ⟨member, on⟩ := newestOn_mem found
          exact ⟨member, (own _ member).lineageId.trans on.1⟩
      change orElse (orElse head.lineageId head.toolName) toolName = toolName
      rw [orElse_own (.inr (own _ isHead.1).lineageId), ← (own _ isHead.1).lineageId]
      exact orElse_own (.inr isHead.2)

theorem OwnLineage.map {rows : List ToolRow} {change : ToolRow → ToolRow}
    (own : ∀ old ∈ rows, OwnLineage old) (keeps : KeepsPlace change)
    (lineage : ∀ row, (change row).lineageId = row.lineageId) :
    ∀ row ∈ rows.map change, OwnLineage row := by
  intro row member
  obtain ⟨old, here, rfl⟩ := List.mem_map.mp member
  exact ⟨by rw [lineage, keeps.toolName, (own old here).lineageId],
    by rw [keeps.branch]; exact (own old here).branch⟩

theorem RowsAfter.ownLineage {env : Env V} {s : StoreState V} {call : Call V}
    {next : List ToolRow} (after : RowsAfter env s call next)
    (wellFormed : WellFormed s.tools.rows) (ordinary : Ordinary call)
    (own : ∀ old ∈ s.tools.rows, OwnLineage old) : ∀ row ∈ next, OwnLineage row := by
  cases after with
  | same => exact own
  | @insert _ row new _ =>
      have old := OwnLineage.map own (makeRoom_keepsPlace (stored s.tools row))
        (makeRoom_lineageId _)
      refine List.forall_mem_append.mpr ⟨old, List.forall_mem_singleton.mpr ?_⟩
      have made := (makes_of_newRow new).1.ownLineage ordinary own
      exact ⟨made.lineageId, made.branch⟩
  | @reupsert entry =>
      have made : Makes env s.tools.rows (.upsertTool entry) (upsertRow env entry s.tools.rows) :=
        .upsert
      intro row member
      obtain ⟨old, here, rfl⟩ := List.mem_map.mp member
      have keeps := reupsert_keepsPlace (upsertRow env entry s.tools.rows)
      refine ⟨?_, by rw [keeps.branch]; exact (own old here).branch⟩
      rw [keeps.toolName]
      by_cases same : old.toolId = (upsertRow env entry s.tools.rows).toolId
      · rw [ToolStore.reupsert, if_pos same, overwrite, if_pos same]
        have form := made.wellFormedRow wellFormed.each
        rw [form.toolId] at same
        have on := wellFormed.on_of_toolId here form.branch form.version same
        exact (orElse_own ordinary).trans on.1.1.symm
      · rw [ToolStore.reupsert, if_neg same, makeRoom_lineageId]
        exact (own old here).lineageId
  | delete => exact fun row member => own row (List.mem_filter.mp member).1

/-- Rows are well formed, and every tool is its own lineage. -/
def OwnLineages (s : StoreState V) : Prop :=
  WellFormed s.tools.rows ∧ ∀ row ∈ s.tools.rows, OwnLineage row

theorem step_ownLineages (s : StoreState V) (action : Env V × Call V) (own : OwnLineages s)
    (ordinary : Ordinary action.2) : OwnLineages (step s action) := by
  refine ⟨step_wellFormed s action own.1, ?_⟩
  refine (step_rows s action).ownLineage (marked_wellFormed own.1 action.2) ordinary ?_
  obtain ⟨change, relabels, rows⟩ := marked_rows s action.2
  rw [rows]
  exact OwnLineage.map own.2 relabels.toKeepsPlace relabels.lineageId

theorem ownLineages_empty (vecExtension : Option (VecExtension V)) :
    OwnLineages (StoreState.empty vecExtension) :=
  ⟨wellFormed_empty vecExtension, fun _ none => absurd none List.not_mem_nil⟩

/-! ## The four views -/

/-- What `get_version` and its like tell of a version. -/
def ToolVersion.content (version : ToolVersion) : String × ToolDefinition :=
  (version.version, version.definition)

/-- The tree, the chain and the ends of the chain tell the same of a tool. -/
structure LookupsAgree (changelogOf : String → String) (toolName : String)
    (s : StoreState V) : Prop where
  /-- A branch of the tree is that of the rows, from the oldest on. -/
  tree : ∀ branch,
    ((getVersionTree changelogOf s.tools.rows toolName).lookup branch).getD [] =
      (oldestFirst ToolRow.age (branchRows s.tools.rows toolName branch)).map
        (ToolRow.toVersion changelogOf)
  branches : ∀ branch, branch ∈ (getVersionTree changelogOf s.tools.rows toolName).keys ↔
    HasBranch s.tools.rows toolName branch
  chain : getVersionChain changelogOf s.tools.rows toolName =
    (((getVersionTree changelogOf s.tools.rows toolName).lookup "main").getD []).reverse
  root : (getRootVersion s toolName).map (fun entry => (entry.version, entry.definition)) =
    (getVersionChain changelogOf s.tools.rows toolName).getLast?.map ToolVersion.content
  head : (getHeadVersion s toolName).map (fun entry => (entry.version, entry.definition)) =
    (getVersionChain changelogOf s.tools.rows toolName).head?.map ToolVersion.content
  latest : (getTool s.tools.rows toolName "").map (rowToEntry s) = getHeadVersion s toolName

theorem keyInjective_branchRows (s : StoreState V) (toolName branch : String) :
    KeyInjective ToolRow.age (branchRows s.tools.rows toolName branch) :=
  (age_injective s.tools).subset fun _ member => (mem_branchRows.mp member).1

/-- Adding items one by one to the end of a list adds the list of the items. -/
theorem foldl_concat {α : Type} (items start : List α) :
    items.foldl (fun list item => list ++ [item]) start = start ++ items := by
  rw [List.foldl_append_eq_append, ← List.flatMap_def, List.flatMap_singleton']

section Agree

variable {s : StoreState V} (own : OwnLineages s) (toolName : String)

include own

theorem OwnLineages.lineageRows_eq :
    lineageRows s.tools.rows toolName =
      s.tools.rows.filter fun row => row.toolName = toolName := by
  have same : (s.tools.rows.filter fun row => row.lineageId = toolName) =
      s.tools.rows.filter fun row => row.toolName = toolName :=
    List.filter_congr fun row member => by rw [(own.2 row member).lineageId]
  unfold lineageRows
  dsimp only
  rw [same, ite_self]

theorem OwnLineages.mainRows_eq :
    (s.tools.rows.filter fun row => row.lineageId = toolName ∧ row.branch = "main") =
      branchRows s.tools.rows toolName "main" :=
  List.filter_congr fun row member => by
    rw [(own.2 row member).lineageId]
    rfl

theorem OwnLineages.lineageRoot_eq :
    lineageRoot s.tools.rows toolName = oldestOn s.tools.rows toolName "main" := by
  rw [lineageRoot, own.mainRows_eq, oldestOn, Option.or_self]

theorem OwnLineages.lineageHead_eq :
    lineageHead s.tools.rows toolName = newestOn s.tools.rows toolName "main" := by
  rw [lineageHead, own.mainRows_eq, newestOn, Option.or_self]

theorem OwnLineages.toVersion_branch (changelogOf : String → String) {row : ToolRow}
    (member : row ∈ s.tools.rows) : (row.toVersion changelogOf).branch = row.branch :=
  if_neg (own.2 row member).branch

theorem OwnLineages.tree_eq (changelogOf : String → String) (branch : String) :
    ((getVersionTree changelogOf s.tools.rows toolName).lookup branch).getD [] =
      (oldestFirst ToolRow.age (branchRows s.tools.rows toolName branch)).map
        (ToolRow.toVersion changelogOf) := by
  have inj : KeyInjective ToolRow.age (s.tools.rows.filter fun row => row.toolName = toolName) :=
    (age_injective s.tools).subset fun _ member => (List.mem_filter.mp member).1
  unfold getVersionTree addVersion
  rw [OrderedDict.lookup_foldl_gather, foldl_concat, own.lineageRows_eq, List.filter_map]
  change [] ++ _ = _
  rw [List.nil_append]
  congr 1
  have branches : ∀ row ∈ oldestFirst ToolRow.age
      (s.tools.rows.filter fun row => row.toolName = toolName),
      decide ((row.toVersion changelogOf).branch = branch) = decide (row.branch = branch) := by
    intro row member
    have here := (List.mem_filter.mp (oldestFirst_perm.mem_iff.mp member)).1
    rw [own.toVersion_branch changelogOf here]
  calc
    _ = (oldestFirst ToolRow.age
          (s.tools.rows.filter fun row => row.toolName = toolName)).filter
            (fun row => row.branch = branch) := List.filter_congr branches
    _ = oldestFirst ToolRow.age ((s.tools.rows.filter fun row => row.toolName = toolName).filter
          (fun row => row.branch = branch)) := filter_oldestFirst inj _
    _ = oldestFirst ToolRow.age (branchRows s.tools.rows toolName branch) := by
        rw [List.filter_filter, branchRows]
        congr 1
        refine List.filter_congr fun row _ => ?_
        change _ = decide (row.toolName = toolName ∧ row.branch = branch)
        rw [Bool.decide_and, Bool.and_comm]

theorem OwnLineages.branches_iff (changelogOf : String → String) (branch : String) :
    branch ∈ (getVersionTree changelogOf s.tools.rows toolName).keys ↔
      HasBranch s.tools.rows toolName branch := by
  unfold getVersionTree addVersion
  rw [OrderedDict.mem_keys_foldl_gather, own.lineageRows_eq]
  constructor
  · rintro (none | ⟨version, member, rfl⟩)
    · exact absurd none List.not_mem_nil
    · obtain ⟨row, here, rfl⟩ := List.mem_map.mp member
      obtain ⟨there, name⟩ := List.mem_filter.mp (oldestFirst_perm.mem_iff.mp here)
      exact ⟨row, there, of_decide_eq_true name, (own.toVersion_branch changelogOf there).symm⟩
  · rintro ⟨row, member, name, rfl⟩
    refine .inr ⟨row.toVersion changelogOf, List.mem_map_of_mem ?_,
      own.toVersion_branch changelogOf member⟩
    exact oldestFirst_perm.mem_iff.mpr (List.mem_filter.mpr ⟨member, decide_eq_true name⟩)

theorem OwnLineages.lookupsAgree (changelogOf : String → String) :
    LookupsAgree changelogOf toolName s := by
  have inj := keyInjective_branchRows s toolName "main"
  refine ⟨own.tree_eq toolName changelogOf, own.branches_iff toolName changelogOf, ?_, ?_, ?_, ?_⟩
  · rw [own.tree_eq, getVersionChain, newestFirst_eq_reverse inj, List.map_reverse]
  · rw [getRootVersion, own.lineageRoot_eq, getVersionChain, newestFirst_eq_reverse inj,
      List.getLast?_map, List.getLast?_reverse, head?_oldestFirst inj, Option.map_map,
      Option.map_map]
    rfl
  · rw [getHeadVersion, own.lineageHead_eq, getVersionChain, newestFirst_eq_reverse inj,
      List.head?_map, List.head?_reverse, getLast?_oldestFirst inj, Option.map_map, Option.map_map]
    rfl
  · rw [getHeadVersion, own.lineageHead_eq, getTool, if_neg (by simp)]

end Agree

/-- In every run of ordinary calls, tree, chain, root and head tell the same of every tool. -/
theorem lookupsAgree_throughout (changelogOf : String → String)
    (vecExtension : Option (VecExtension V)) {actions : List (Env V × Call V)}
    (ordinary : ∀ action ∈ actions, Ordinary action.2) :
    Throughout step (fun s => ∀ toolName, LookupsAgree changelogOf toolName s)
      (StoreState.empty vecExtension) actions := by
  have always : Throughout step OwnLineages (StoreState.empty vecExtension) actions :=
    throughout_of_stepsMeet OwnLineages step_ownLineages (ownLineages_empty vecExtension)
      (stepsMeet_of_forall step _ ordinary)
  exact fun count toolName => (always count).lookupsAgree toolName changelogOf

/-- A tool with a branch on which it is changed. -/
def branched : List (Env Unit × Call Unit) :=
  [(atTime 1, .upsertTool (plainEntry "0.0.1")), (atTime 2, .createBranch "tool" "dev" ""),
    (atTime 3, .createVersion "tool" (plainDefinition "second") "" "minor" "dev" "")]

theorem lookupsAgree_branched :
    Throughout step (fun s => ∀ toolName, LookupsAgree (fun _ => "") toolName s)
      (StoreState.empty none) branched := by
  refine lookupsAgree_throughout _ none fun action member => ?_
  simp only [branched, List.mem_cons, List.not_mem_nil, or_false] at member
  rcases member with rfl | rfl | rfl
  · exact .inl rfl
  · change "dev" ≠ ""
    decide
  · trivial

/-! ## The root over runs -/

/-- The tool's first row on `main` has the identifier. -/
def RootIs (toolName toolId : String) (s : StoreState V) : Prop :=
  ∃ root, lineageRoot s.tools.rows toolName = some root ∧ root.toolId = toolId

/-- The call does not delete the root of the tool, and inserts no row on `main` before it. -/
def KeepsRoot (toolName : String) (s : StoreState V) (action : Env V × Call V) : Prop :=
  ∀ root, lineageRoot s.tools.rows toolName = some root →
    (∀ name version, action.2 = .deleteTool name version → Stays name version root) ∧
      ∀ row, insertedRow s action = some row → row.On toolName "main" →
        root.createdAt ≤ row.createdAt

theorem oldestOn_mem {rows : List ToolRow} {toolName branch : String} {row : ToolRow}
    (bottom : oldestOn rows toolName branch = some row) : row ∈ rows ∧ row.On toolName branch :=
  mem_branchRows.mp (oldest_mem bottom)

theorem KeepsPlace.oldestOn {change : ToolRow → ToolRow} (keeps : KeepsPlace change)
    {rows : List ToolRow} (toolName branch : String) :
    oldestOn (rows.map change) toolName branch =
      (ToolStore.oldestOn rows toolName branch).map change := by
  unfold ToolStore.oldestOn
  rw [keeps.branchRows, oldest_map keeps.age]

/-- The oldest row of a branch to which a row is added. -/
theorem oldestOn_insert {rows : List ToolRow} {row : ToolRow} (fresh : Fresh rows row)
    (toolName branch : String) {bottom : ToolRow}
    (isOldest : oldestOn rows toolName branch = some bottom) :
    oldestOn (rows.map (makeRoom row) ++ [row]) toolName branch =
      if row.On toolName branch ∧ row.createdAt < bottom.createdAt then some row
      else some (makeRoom row bottom) := by
  have keeps := makeRoom_keepsPlace row
  have before := fresh.age_le_iff (oldestOn_mem isOldest).1
  have mapped : oldest ToolRow.age (branchRows (rows.map (makeRoom row)) toolName branch) =
      some (makeRoom row bottom) := by
    rw [← oldestOn, keeps.oldestOn, isOldest]
    rfl
  have parts : branchRows (rows.map (makeRoom row) ++ [row]) toolName branch =
      branchRows (rows.map (makeRoom row)) toolName branch ++
        if row.On toolName branch then [row] else [] := by
    rw [branchRows, List.filter_append, List.filter_singleton]
    congr 1
    simp
  rw [oldestOn, parts]
  by_cases on : row.On toolName branch
  · rw [if_pos on, oldest_append_singleton, mapped]
    dsimp only
    rw [keeps.age]
    refine if_congr ?_ rfl rfl
    rw [← not_le, before, not_le, and_iff_right on]
  · rw [if_neg on, List.append_nil, mapped, if_neg (fun both => on both.1)]

/-- The oldest row of a branch stays the oldest through a deletion that leaves it. -/
theorem oldestOn_delete {table : ToolTable} {toolName branch : String} {root : ToolRow}
    (isOldest : oldestOn table.rows toolName branch = some root) (name version : String) :
    (∃ left, oldestOn (table.rows.filter fun row => !selects name version row) toolName branch =
        some left ∧ left.toolId = root.toolId) ↔ Stays name version root := by
  obtain ⟨member, on⟩ := oldestOn_mem isOldest
  constructor
  · rintro ⟨left, found, same⟩
    obtain ⟨here, stays⟩ := mem_deleted_iff.mp (oldestOn_mem found).1
    rwa [← RowTable.eq_of_uniqueKey here member same]
  · intro stays
    refine ⟨root, ?_, rfl⟩
    have sub : ∀ row ∈ branchRows (table.rows.filter fun row => !selects name version row)
        toolName branch, row ∈ branchRows table.rows toolName branch := by
      intro row found
      obtain ⟨here, onBranch⟩ := mem_branchRows.mp found
      exact mem_branchRows.mpr ⟨(mem_deleted_iff.mp here).1, onBranch⟩
    have inj := (age_injective table).subset fun row found => (mem_branchRows.mp (sub row found)).1
    refine (oldest_eq_some_iff inj).mpr ⟨?_, fun other found => oldest_le isOldest (sub other found)⟩
    exact mem_branchRows.mpr ⟨mem_deleted_iff.mpr ⟨member, stays⟩, on⟩

theorem rootIs_step_iff {toolName toolId : String} {s : StoreState V} {action : Env V × Call V}
    (own : OwnLineages s) (ordinary : Ordinary action.2) (isRoot : RootIs toolName toolId s) :
    RootIs toolName toolId (step s action) ↔ KeepsRoot toolName s action := by
  obtain ⟨env, call⟩ := action
  obtain ⟨root, found, rfl⟩ := isRoot
  have next := step_ownLineages s (env, call) own ordinary
  unfold RootIs KeepsRoot
  rw [own.lineageRoot_eq] at found
  rw [next.lineageRoot_eq, own.lineageRoot_eq]
  simp only [found, Option.some.injEq, forall_eq']
  by_cases deletes : ∃ name version, call = .deleteTool name version
  · obtain ⟨name, version, rfl⟩ := deletes
    have rows : (step s (env, .deleteTool name version)).tools.rows =
        s.tools.rows.filter fun row => !selects name version row := deleteTool_tools_rows ..
    rw [rows, oldestOn_delete found name version]
    constructor
    · intro stays
      refine ⟨fun name' version' same => ?_, fun row inserted => by cases inserted⟩
      cases same
      exact stays
    · exact fun both => both.1 name version rfl
  · obtain ⟨change, relabels, rows⟩ := marked_rows s call
    have keeps := relabels.toKeepsPlace
    have marked : oldestOn (marked s call).tools.rows toolName "main" = some (change root) := by
      rw [rows, keeps.oldestOn, found]
      rfl
    have noDelete : ∀ name version, call = .deleteTool name version → Stays name version root :=
      fun name version same => absurd ⟨name, version, same⟩ deletes
    have after := step_rows s (env, call)
    generalize (step s (env, call)).tools.rows = later at after ⊢
    cases after with
    | same nothing =>
        refine iff_of_true ⟨change root, marked, keeps.toolId root⟩ ⟨noDelete, fun row new => ?_⟩
        rw [insertedRow, nothing] at new
        cases new
    | @insert _ new isNew fresh =>
        rw [oldestOn_insert fresh toolName "main" marked, keeps.createdAt]
        constructor
        · rintro ⟨first, isFirst, same⟩
          refine ⟨noDelete, fun row inserted on => not_lt.mp fun before => ?_⟩
          obtain rfl := Option.some.inj (isNew.symm.trans inserted)
          rw [if_pos ⟨on, before⟩] at isFirst
          cases isFirst
          refine fresh.toolId (change root) (oldestOn_mem marked).1 ?_
          rw [keeps.toolId, same]
        · rintro ⟨_, notBefore⟩
          refine ⟨makeRoom _ (change root), if_neg fun both => ?_, ?_⟩
          · exact absurd both.2 (not_lt.mpr (notBefore new isNew both.1))
          · rw [(makeRoom_keepsPlace _).toolId, keeps.toolId]
    | @reupsert entry _ taken =>
        have again := reupsert_keepsPlace (upsertRow env entry s.tools.rows)
        refine iff_of_true ⟨ToolStore.reupsert (upsertRow env entry s.tools.rows) root, ?_,
          again.toolId root⟩ ⟨noDelete, fun row new => ?_⟩
        · change oldestOn (s.tools.rows.map (ToolStore.reupsert (upsertRow env entry s.tools.rows)))
            toolName "main" = _
          rw [again.oldestOn, found]
          rfl
        · rw [insertedRow, newRow_upsert_taken taken] at new
          cases new
    | delete => exact absurd ⟨_, _, rfl⟩ deletes

end YouMi.Mcp.ToolStore
