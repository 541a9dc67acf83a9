import YouMi.Mcp.ToolStore.Effects

/-!
# Well-formed rows

In every reachable state a row's identifier is the one its tool, branch and
version have, its version is valid and its stage is that of its version, and no
branch has two heads.  Identifiers are injective in tool, branch and version,
because valid versions and legal branch names are free of the separators.
-/

namespace YouMi.Mcp.ToolStore

open YouMi.Core YouMi.Library YouMi.Python

variable {V : Type}

/-! ## Identifiers -/

/-- The last occurrence of a separator splits a list in one way only. -/
theorem append_separator_inj {α : Type} {separator : α} {first second first' second' : List α}
    (absent : separator ∉ second) (absent' : separator ∉ second')
    (same : first ++ separator :: second = first' ++ separator :: second') :
    first = first' ∧ second = second' := by
  rcases List.append_eq_append_iff.mp same with ⟨between, rfl, rest⟩ | ⟨between, rfl, rest⟩
  · cases between with
    | nil => exact ⟨(List.append_nil first).symm, (List.cons.inj rest).2⟩
    | cons c between =>
        have inside := (List.cons.inj rest).2
        exact absurd (by rw [inside]; simp) absent
  · cases between with
    | nil => exact ⟨List.append_nil first', ((List.cons.inj rest).2).symm⟩
    | cons c between =>
        have inside := (List.cons.inj rest).2
        exact absurd (by rw [inside]; simp) absent'

/-- What follows the name in an identifier. -/
def versionPart (branch version : String) : List Char :=
  if branch = "main" then version.toList else branch.toList ++ '/' :: version.toList

theorem toolIdOn_toList (toolName branch version : String) :
    (toolIdOn toolName branch version).toList =
      toolName.toList ++ '@' :: versionPart branch version := by
  unfold toolIdOn versionPart
  split
  · rw [mainToolId, String.toList_append, String.toList_append, List.append_assoc]
    rfl
  · simp only [branchToolId, String.toList_append, List.append_assoc]
    rfl

theorem versionPart_inj {branch branch' version version' : String}
    (valid : isValidSemver version = true) (valid' : isValidSemver version' = true)
    (same : versionPart branch version = versionPart branch' version') :
    branch = branch' ∧ version = version' := by
  have free := (no_separator_of_valid valid).2
  have free' := (no_separator_of_valid valid').2
  unfold versionPart at same
  split at same
  · rename_i main
    split at same
    · rename_i main'
      exact ⟨main.trans main'.symm, String.toList_inj.mp same⟩
    · exact absurd (by rw [same]; simp) free
  · split at same
    · exact absurd (by rw [← same]; simp) free'
    · obtain ⟨branches, versions⟩ := append_separator_inj free free' same
      exact ⟨String.toList_inj.mp branches, String.toList_inj.mp versions⟩

theorem at_not_mem_versionPart {branch version : String} (legal : LegalBranch branch)
    (valid : isValidSemver version = true) : '@' ∉ versionPart branch version := by
  have free := (no_separator_of_valid valid).1
  unfold versionPart
  split
  · exact free
  · simp [legal.1, free]

/-- An identifier determines the tool, the branch and the version. -/
theorem toolIdOn_inj {toolName toolName' branch branch' version version' : String}
    (legal : LegalBranch branch) (legal' : LegalBranch branch')
    (valid : isValidSemver version = true) (valid' : isValidSemver version' = true)
    (same : toolIdOn toolName branch version = toolIdOn toolName' branch' version') :
    toolName = toolName' ∧ branch = branch' ∧ version = version' := by
  have lists := congrArg String.toList same
  rw [toolIdOn_toList, toolIdOn_toList] at lists
  obtain ⟨names, parts⟩ := append_separator_inj (at_not_mem_versionPart legal valid)
    (at_not_mem_versionPart legal' valid') lists
  exact ⟨String.toList_inj.mp names, versionPart_inj valid valid' parts⟩

/-! ## Rows -/

structure WellFormedRow (row : ToolRow) : Prop where
  toolId : row.toolId = toolIdOn row.toolName row.branch row.version
  version : isValidSemver row.version = true
  branch : LegalBranch row.branch
  stage : row.stage = stageOf row.version

theorem legalBranch_main : LegalBranch "main" := by decide

theorem KeepsPlace.wellFormedRow {change : ToolRow → ToolRow} (keeps : KeepsPlace change)
    {row : ToolRow} (wellFormed : WellFormedRow row) : WellFormedRow (change row) where
  toolId := by
    rw [keeps.toolId, keeps.toolName, keeps.branch, keeps.version]
    exact wellFormed.toolId
  version := by
    rw [keeps.version]
    exact wellFormed.version
  branch := by
    rw [keeps.branch]
    exact wellFormed.branch
  stage := by
    rw [keeps.stage, keeps.version]
    exact wellFormed.stage

theorem isValidSemver_nextVersion {current : String} (bump changeKind : String)
    (valid : isValidSemver current = true) :
    isValidSemver (nextVersion current bump changeKind) = true := by
  unfold nextVersion
  split
  · exact isValidSemver_bumpFor valid
  · exact isValidSemver_bumpVersion valid

theorem forkPoint_mem {rows : List ToolRow} {toolName fromVersion : String} {base : ToolRow}
    (fork : forkPoint rows toolName fromVersion = some base) :
    base ∈ rows ∧ base.On toolName "main" := by
  unfold forkPoint at fork
  split at fork
  · have on : base.On toolName "main" ∧ base.version = fromVersion := by
      simpa using List.find?_some fork
    exact ⟨List.mem_of_find?_eq_some fork, on.1⟩
  · exact newestOn_mem fork

theorem Makes.wellFormedRow {env : Env V} {rows : List ToolRow} {call : Call V} {row : ToolRow}
    (made : Makes env rows call row) (wellFormed : ∀ old ∈ rows, WellFormedRow old) :
    WellFormedRow row := by
  cases made with
  | upsert =>
      refine ⟨(toolIdOn_main _ _).symm, isValidSemver_resolveInitialVersion _ _,
        legalBranch_main, ?_⟩
      dsimp only [upsertRow]
  | version commits top =>
      obtain ⟨member, _, onBranch⟩ := newestOn_mem top
      have old := wellFormed _ member
      refine ⟨rfl, isValidSemver_nextVersion _ _ old.version, onBranch ▸ old.branch, ?_⟩
      dsimp only [versionRow]
  | @branch toolName branchName _ base notMain legal fork =>
      obtain ⟨member, onMain, _⟩ := forkPoint_mem fork
      have old := wellFormed _ member
      refine ⟨?_, old.version, legal, old.stage⟩
      change branchToolId toolName branchName base.version =
        toolIdOn base.toolName branchName base.version
      rw [toolIdOn, if_neg notMain, onMain]
  | promotion =>
      have valid : isValidSemver stableInitialVersion = true := by decide
      have stage : VersionStage.stable = stageOf stableInitialVersion := by decide
      exact ⟨(toolIdOn_main _ _).symm, valid, legalBranch_main, stage⟩

theorem Makes.isHead_or_upsert {env : Env V} {rows : List ToolRow} {call : Call V} {row : ToolRow}
    (made : Makes env rows call row) : row.isHead = true ∨ ∃ entry, call = .upsertTool entry := by
  cases made with
  | upsert => exact .inr ⟨_, rfl⟩
  | version => exact .inl rfl
  | branch => exact .inl rfl
  | promotion => exact .inl rfl

/-- A promotion inserts its row on the main branch of its tool. -/
theorem Makes.on_of_promotes {env : Env V} {rows : List ToolRow} {call : Call V} {row : ToolRow}
    {toolName : String} (made : Makes env rows call row) (promotes : Promotes call toolName) :
    row.On toolName "main" := by
  cases made with
  | upsert => cases promotes
  | version commits => cases commits <;> cases promotes
  | branch => cases promotes
  | promotion promotes' => cases promotes' <;> cases promotes <;> exact ⟨rfl, rfl⟩

/-- No branch of a tool has two heads. -/
def AtMostOneHead (rows : List ToolRow) : Prop :=
  ∀ first ∈ rows, ∀ second ∈ rows, first.isHead = true → second.isHead = true →
    second.On first.toolName first.branch → first = second

/-- What every reachable table satisfies. -/
structure WellFormed (rows : List ToolRow) : Prop where
  each : ∀ row ∈ rows, WellFormedRow row
  heads : AtMostOneHead rows

/-- A change that may only take the head flag away. -/
def OnlyDemotes (change : ToolRow → ToolRow) : Prop :=
  ∀ row, (change row).isHead = true → row.isHead = true

theorem demote_onlyDemotes (toolName branch : String) : OnlyDemotes (demote toolName branch) := by
  intro row head
  unfold demote at head
  split at head
  · cases head
  · exact head

theorem Relabels.onlyDemotes {change : ToolRow → ToolRow} (relabels : Relabels change) :
    OnlyDemotes change := by
  intro row head
  rwa [relabels.isHead] at head

theorem makeRoom_onlyDemotes (row : ToolRow) : OnlyDemotes (makeRoom row) := by
  unfold makeRoom
  split
  · exact demote_onlyDemotes _ _
  · exact fun _ head => head

theorem overwrite_isHead (new old : ToolRow) : (overwrite new old).isHead = old.isHead := by
  unfold overwrite
  split <;> rfl

theorem reupsert_onlyDemotes (new : ToolRow) : OnlyDemotes (reupsert new) := by
  intro row head
  unfold reupsert at head
  split at head
  · rwa [overwrite_isHead] at head
  · exact makeRoom_onlyDemotes new row head

theorem WellFormed.map {rows : List ToolRow} {change : ToolRow → ToolRow}
    (wellFormed : WellFormed rows) (keeps : KeepsPlace change) (demotes : OnlyDemotes change) :
    WellFormed (rows.map change) where
  each := by
    intro row member
    obtain ⟨old, hold, rfl⟩ := List.mem_map.mp member
    exact keeps.wellFormedRow (wellFormed.each old hold)
  heads := by
    intro first hfirst second hsecond firstHead secondHead same
    obtain ⟨old, hold, rfl⟩ := List.mem_map.mp hfirst
    obtain ⟨old', hold', rfl⟩ := List.mem_map.mp hsecond
    rw [keeps.on, keeps.toolName, keeps.branch] at same
    rw [wellFormed.heads old hold old' hold' (demotes _ firstHead) (demotes _ secondHead) same]

theorem demote_isHead {toolName branch : String} {row : ToolRow} :
    (demote toolName branch row).isHead = true ↔ row.isHead = true ∧ ¬ row.On toolName branch := by
  unfold demote
  split <;> simp_all

theorem makeRoom_isHead {row old : ToolRow} :
    (makeRoom row old).isHead = true ↔
      old.isHead = true ∧ (row.isHead = true → ¬ old.On row.toolName row.branch) := by
  unfold makeRoom
  split
  · rename_i head
    rw [demote_isHead]
    simp [head]
  · rename_i notHead
    simp [notHead]

theorem WellFormed.insert {rows : List ToolRow} {row : ToolRow} (wellFormed : WellFormed rows)
    (new : WellFormedRow row) : WellFormed (rows.map (makeRoom row) ++ [row]) where
  each := by
    intro other member
    rcases List.mem_append.mp member with old | last
    · exact (wellFormed.map (makeRoom_keepsPlace row) (makeRoom_onlyDemotes row)).each other old
    · rw [List.mem_singleton.mp last]
      exact new
  heads := by
    -- An old row on the branch of a new head is no head any more.
    have apart : ∀ other ∈ rows.map (makeRoom row), row.isHead = true → other.isHead = true →
        ¬ other.On row.toolName row.branch := by
      intro other member rowHead otherHead
      obtain ⟨old, _, rfl⟩ := List.mem_map.mp member
      rw [makeRoom, if_pos rowHead] at otherHead ⊢
      rw [(demote_keepsPlace _ _).on]
      exact (demote_isHead.mp otherHead).2
    have old := (wellFormed.map (makeRoom_keepsPlace row) (makeRoom_onlyDemotes row)).heads
    intro first hfirst second hsecond firstHead secondHead same
    rcases List.mem_append.mp hfirst with first_old | first_new
    · rcases List.mem_append.mp hsecond with second_old | second_new
      · exact old first first_old second second_old firstHead secondHead same
      · rw [List.mem_singleton.mp second_new] at same secondHead
        exact absurd ⟨same.1.symm, same.2.symm⟩ (apart first first_old secondHead firstHead)
    · rw [List.mem_singleton.mp first_new] at same firstHead ⊢
      rcases List.mem_append.mp hsecond with second_old | second_new
      · exact absurd same (apart second second_old firstHead secondHead)
      · exact (List.mem_singleton.mp second_new).symm

theorem WellFormed.filter {rows : List ToolRow} (wellFormed : WellFormed rows)
    (keep : ToolRow → Bool) : WellFormed (rows.filter keep) where
  each row member := wellFormed.each row (List.mem_filter.mp member).1
  heads first hfirst second hsecond :=
    wellFormed.heads first (List.mem_filter.mp hfirst).1 second (List.mem_filter.mp hsecond).1

theorem WellFormedRow.stored {row : ToolRow} (form : WellFormedRow row) (tools : ToolTable) :
    WellFormedRow (stored tools row) := ⟨form.toolId, form.version, form.branch, form.stage⟩

theorem RowsAfter.wellFormed {env : Env V} {s : StoreState V} {call : Call V}
    {next : List ToolRow} (after : RowsAfter env s call next)
    (wellFormed : WellFormed s.tools.rows) : WellFormed next := by
  cases after with
  | same => exact wellFormed
  | insert new _ =>
      have form := (makes_of_newRow new).1.wellFormedRow wellFormed.each
      exact wellFormed.insert (form.stored s.tools)
  | reupsert => exact wellFormed.map (reupsert_keepsPlace _) (reupsert_onlyDemotes _)
  | delete => exact wellFormed.filter _

theorem marked_wellFormed {s : StoreState V} (wellFormed : WellFormed s.tools.rows)
    (call : Call V) : WellFormed (marked s call).tools.rows := by
  obtain ⟨change, relabels, rows⟩ := marked_rows s call
  rw [rows]
  exact wellFormed.map relabels.toKeepsPlace relabels.onlyDemotes

theorem step_wellFormed (s : StoreState V) (action : Env V × Call V)
    (wellFormed : WellFormed s.tools.rows) : WellFormed (step s action).tools.rows :=
  (step_rows s action).wellFormed (marked_wellFormed wellFormed action.2)

theorem wellFormed_empty (vecExtension : Option (VecExtension V)) :
    WellFormed (StoreState.empty vecExtension).tools.rows where
  each := by simp [StoreState.empty]
  heads := by simp [AtMostOneHead, StoreState.empty]

/-- Rows are well formed in every reachable state. -/
theorem ReachableState.wellFormed {s : StoreState V} (reach : ReachableState s) :
    WellFormed s.tools.rows := by
  obtain ⟨vecExtension, run⟩ := reach
  exact Reachable.invariant (fun s : StoreState V => WellFormed s.tools.rows)
    (wellFormed_empty vecExtension) step_wellFormed run

/-! ## Where a row comes from -/

/-- The row was there before, changed but in its place, and no head that it was not. -/
structure FromOld (old row : ToolRow) : Prop where
  toolId : row.toolId = old.toolId
  on : ∀ toolName branch, row.On toolName branch ↔ old.On toolName branch
  version : row.version = old.version
  isHead : row.isHead = true → old.isHead = true

theorem FromOld.refl (row : ToolRow) : FromOld row row := ⟨rfl, fun _ _ => Iff.rfl, rfl, id⟩

theorem FromOld.trans {first second third : ToolRow} (later : FromOld second third)
    (earlier : FromOld first second) : FromOld first third where
  toolId := later.toolId.trans earlier.toolId
  on toolName branch := (later.on toolName branch).trans (earlier.on toolName branch)
  version := later.version.trans earlier.version
  isHead flag := earlier.isHead (later.isHead flag)

theorem KeepsPlace.fromOld {change : ToolRow → ToolRow} (keeps : KeepsPlace change)
    (demotes : OnlyDemotes change) (old : ToolRow) : FromOld old (change old) :=
  ⟨keeps.toolId old, fun _ _ => keeps.on, keeps.version old, demotes old⟩

theorem RowsAfter.fromOld_or_new {env : Env V} {s : StoreState V} {call : Call V}
    {next : List ToolRow} (after : RowsAfter env s call next) {row : ToolRow}
    (member : row ∈ next) :
    (∃ old ∈ s.tools.rows, FromOld old row) ∨
      ∃ new, newRow env s call = some new ∧ row = stored s.tools new := by
  cases after with
  | same => exact .inl ⟨row, member, .refl row⟩
  | @insert _ new isNew fresh =>
      rcases List.mem_append.mp member with old | last
      · obtain ⟨before, here, rfl⟩ := List.mem_map.mp old
        exact .inl ⟨before, here, (makeRoom_keepsPlace _).fromOld (makeRoom_onlyDemotes _) before⟩
      · exact .inr ⟨new, isNew, List.mem_singleton.mp last⟩
  | reupsert =>
      obtain ⟨before, here, rfl⟩ := List.mem_map.mp member
      exact .inl ⟨before, here, (reupsert_keepsPlace _).fromOld (reupsert_onlyDemotes _) before⟩
  | delete => exact .inl ⟨row, List.mem_of_mem_filter member, .refl row⟩

/-- The inserted row is there after the call, under an identifier that was free. -/
theorem RowsAfter.written {env : Env V} {s : StoreState V} {call : Call V} {next : List ToolRow}
    (after : RowsAfter env s call next) {new : ToolRow} (isNew : newRow env s call = some new) :
    stored s.tools new ∈ next ∧ ∀ old ∈ s.tools.rows, old.toolId ≠ new.toolId := by
  cases after with
  | same nothing =>
      rw [nothing] at isNew
      cases isNew
  | insert planned fresh =>
      rw [isNew] at planned
      cases planned
      exact ⟨List.mem_append_right _ (List.mem_singleton_self _), fresh.toolId⟩
  | reupsert accepted taken =>
      rw [newRow_upsert_taken taken] at isNew
      cases isNew
  | delete => cases isNew

/-- A row after a call was there before, or is the one the call inserts. -/
theorem fromOld_or_new {s : StoreState V} {action : Env V × Call V} {row : ToolRow}
    (member : row ∈ (step s action).tools.rows) :
    (∃ old ∈ s.tools.rows, FromOld old row) ∨
      ∃ new, insertedRow s action = some new ∧
        row = stored (marked s action.2).tools new := by
  rcases (step_rows s action).fromOld_or_new member with ⟨old, here, fromOld⟩ | new
  · obtain ⟨change, relabels, rows⟩ := marked_rows s action.2
    rw [rows] at here
    obtain ⟨before, there, rfl⟩ := List.mem_map.mp here
    have earlier := relabels.toKeepsPlace.fromOld relabels.onlyDemotes before
    exact .inl ⟨before, there, fromOld.trans earlier⟩
  · exact .inr new

section Identified

variable {rows : List ToolRow} (wellFormed : WellFormed rows)

include wellFormed

/-- A row is found by the identifier of its tool, branch and version. -/
theorem WellFormed.on_of_toolId {row : ToolRow} (member : row ∈ rows)
    {toolName branch version : String} (legal : LegalBranch branch)
    (valid : isValidSemver version = true)
    (same : row.toolId = toolIdOn toolName branch version) :
    row.On toolName branch ∧ row.version = version := by
  have form := wellFormed.each row member
  rw [form.toolId] at same
  obtain ⟨name, onBranch, isVersion⟩ :=
    toolIdOn_inj form.branch legal form.version valid same
  exact ⟨⟨name, onBranch⟩, isVersion⟩

/-- The flagged head is the only row of `main` with the flag. -/
theorem WellFormed.flaggedHead_eq_some_iff {row : ToolRow} {toolName : String} :
    flaggedHead rows toolName = some row ↔
      row ∈ rows ∧ row.On toolName "main" ∧ row.isHead = true := by
  refine ⟨flaggedHead_mem, ?_⟩
  rintro ⟨member, on, isHead⟩
  cases found : flaggedHead rows toolName with
  | none =>
      rw [flaggedHead_eq_none_iff.mp found row member on] at isHead
      cases isHead
  | some head =>
      obtain ⟨hhead, headOn, flag⟩ := flaggedHead_mem found
      rw [wellFormed.heads head hhead row member flag isHead
        ⟨on.1.trans headOn.1.symm, on.2.trans headOn.2.symm⟩]

theorem WellFormed.toolId_of_on {row : ToolRow} (member : row ∈ rows) {toolName branch : String}
    (on : row.On toolName branch) : row.toolId = toolIdOn toolName branch row.version := by
  rw [(wellFormed.each row member).toolId, on.1, on.2]

end Identified

end YouMi.Mcp.ToolStore
