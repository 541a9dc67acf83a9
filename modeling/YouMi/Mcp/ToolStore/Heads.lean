import YouMi.Mcp.ToolStore.WellFormed

/-!
# One head on every branch

Every branch that has rows should have exactly one head.  A second head never
appears; a head can get lost: when an older version is upserted again and takes
the head from the others without having the flag, and when the head is deleted
while other versions of its branch stay.
-/

namespace YouMi.Mcp.ToolStore

open YouMi.Core YouMi.Library

variable {V : Type}

def HeadsUnique (rows : List ToolRow) : Prop :=
  ∀ toolName branch, HasBranch rows toolName branch →
    ((branchRows rows toolName branch).filter ToolRow.isHead).length = 1

def HasHead (rows : List ToolRow) (toolName branch : String) : Prop :=
  ∃ row ∈ rows, row.On toolName branch ∧ row.isHead = true

/-- Every row is on a branch with a head. -/
def Headed (rows : List ToolRow) : Prop :=
  ∀ row ∈ rows, HasHead rows row.toolName row.branch

/-- Since a second head never appears, a unique head is a head. -/
theorem headsUnique_iff {table : ToolTable} (wellFormed : WellFormed table.rows) :
    HeadsUnique table.rows ↔ Headed table.rows := by
  constructor
  · intro unique row member
    obtain ⟨head, only⟩ := List.length_eq_one_iff.mp
      (unique row.toolName row.branch ⟨row, member, rfl, rfl⟩)
    have inside : head ∈ (branchRows table.rows row.toolName row.branch).filter ToolRow.isHead := by
      rw [only]
      exact List.mem_singleton_self head
    rw [List.mem_filter, mem_branchRows] at inside
    exact ⟨head, inside.1.1, inside.1.2, inside.2⟩
  · rintro headed toolName branch ⟨row, member, rfl, rfl⟩
    obtain ⟨head, hhead, on, flag⟩ := headed row member
    rw [List.length_eq_one_iff]
    refine ⟨head, List.perm_singleton.mp ((List.perm_ext_iff_of_nodup ?_ ?_).mpr ?_)⟩
    · exact (table.nodup.filter _).filter _
    · exact List.nodup_singleton head
    · intro other
      rw [List.mem_filter, mem_branchRows, List.mem_singleton]
      constructor
      · rintro ⟨⟨hother, otherOn⟩, otherFlag⟩
        exact wellFormed.heads other hother head hhead otherFlag flag
          ⟨on.1.trans otherOn.1.symm, on.2.trans otherOn.2.symm⟩
      · rintro rfl
        exact ⟨⟨hhead, on⟩, flag⟩

/-! ## What keeps a head on every branch -/

theorem Headed.map {rows : List ToolRow} {change : ToolRow → ToolRow} (headed : Headed rows)
    (keeps : KeepsPlace change) (flags : ∀ row, (change row).isHead = row.isHead) :
    Headed (rows.map change) := by
  intro row member
  obtain ⟨old, hold, rfl⟩ := List.mem_map.mp member
  obtain ⟨head, hhead, on, flag⟩ := headed old hold
  refine ⟨change head, List.mem_map_of_mem hhead, ?_, ?_⟩
  · rw [keeps.on, keeps.toolName, keeps.branch]
    exact on
  · rw [flags]
    exact flag

/-- Making room for a head leaves the heads of the other branches. -/
theorem demote_of_not_on {toolName branch : String} {row : ToolRow}
    (away : ¬ row.On toolName branch) : demote toolName branch row = row := if_neg away

theorem Headed.insert {rows : List ToolRow} {row : ToolRow} (headed : Headed rows)
    (head : row.isHead = true ∨ HasHead rows row.toolName row.branch) :
    Headed (rows.map (makeRoom row) ++ [row]) := by
  have keeps := makeRoom_keepsPlace row
  cases flag : row.isHead with
  | false =>
      have room : makeRoom row = id := if_neg (by simp [flag])
      rw [room, List.map_id]
      have lift (toolName branch : String) (has : HasHead rows toolName branch) :
          HasHead (rows ++ [row]) toolName branch := by
        obtain ⟨h, hh, on, isHead⟩ := has
        exact ⟨h, List.mem_append_left _ hh, on, isHead⟩
      intro other member
      rcases List.mem_append.mp member with old | new
      · exact lift _ _ (headed other old)
      · rw [List.mem_singleton.mp new]
        exact lift _ _ (head.resolve_left (by simp [flag]))
  | true =>
      have room : makeRoom row = demote row.toolName row.branch := if_pos flag
      have self : HasHead (rows.map (makeRoom row) ++ [row]) row.toolName row.branch :=
        ⟨row, by simp, ⟨rfl, rfl⟩, flag⟩
      intro other member
      rcases List.mem_append.mp member with old | new
      · obtain ⟨before, hbefore, rfl⟩ := List.mem_map.mp old
        rw [keeps.toolName, keeps.branch]
        by_cases here : before.On row.toolName row.branch
        · rw [here.1, here.2]
          exact self
        · obtain ⟨h, hh, on, isHead⟩ := headed before hbefore
          refine ⟨h, List.mem_append_left _ (List.mem_map.mpr ⟨h, hh, ?_⟩), on, isHead⟩
          rw [room]
          refine demote_of_not_on fun there => here ?_
          exact ⟨on.1.symm.trans there.1, on.2.symm.trans there.2⟩
      · rw [List.mem_singleton.mp new]
        exact self

theorem reupsert_isHead_of_not_head {new : ToolRow} (flag : new.isHead = false) (old : ToolRow) :
    (reupsert new old).isHead = old.isHead := by
  unfold reupsert
  split
  · exact overwrite_isHead new old
  · rw [makeRoom, if_neg (by simp [flag])]
    rfl

/-- A second upsert that takes the head keeps a head exactly if its row is the head. -/
theorem headed_reupsert_iff {table : ToolTable} {new old : ToolRow} (headed : Headed table.rows)
    (flag : new.isHead = true) (hold : old ∈ table.rows) (same : old.toolId = new.toolId)
    (on : old.On new.toolName new.branch) :
    Headed (table.rows.map (reupsert new)) ↔ old.isHead = true := by
  have keeps := reupsert_keepsPlace new
  have room : makeRoom new = demote new.toolName new.branch := if_pos flag
  have this_row : reupsert new old = overwrite new old := if_pos same
  constructor
  · intro still
    obtain ⟨head, member, headOn, isHead⟩ := still _ (List.mem_map_of_mem hold)
    obtain ⟨before, hbefore, rfl⟩ := List.mem_map.mp member
    rw [keeps.toolName, keeps.branch, keeps.on, on.1, on.2] at headOn
    by_cases here : before.toolId = new.toolId
    · have unchanged := RowTable.eq_of_uniqueKey hbefore hold (here.trans same.symm)
      rw [unchanged, this_row, overwrite_isHead] at isHead
      exact isHead
    · rw [reupsert, if_neg here, room] at isHead
      exact absurd headOn (demote_isHead.mp isHead).2
  · intro isHead row member
    obtain ⟨before, hbefore, rfl⟩ := List.mem_map.mp member
    rw [keeps.toolName, keeps.branch]
    by_cases here : before.On new.toolName new.branch
    · refine ⟨reupsert new old, List.mem_map_of_mem hold, ?_, ?_⟩
      · rw [keeps.on, here.1, here.2]
        exact on
      · rw [this_row, overwrite_isHead]
        exact isHead
    · obtain ⟨head, hhead, headOn, headFlag⟩ := headed before hbefore
      have away : ¬ head.On new.toolName new.branch := fun there =>
        here ⟨headOn.1.symm.trans there.1, headOn.2.symm.trans there.2⟩
      refine ⟨reupsert new head, List.mem_map_of_mem hhead, keeps.on.mpr headOn, ?_⟩
      have other : head.toolId ≠ new.toolId := by
        intro equal
        rw [RowTable.eq_of_uniqueKey hhead hold (equal.trans same.symm)] at away
        exact away on
      rw [reupsert, if_neg other, room, demote_of_not_on away]
      exact headFlag

/-- A deletion keeps the heads: with a head, all rows of its branch go. -/
def DeletesWholeBranches (rows : List ToolRow) (toolName version : String) : Prop :=
  version = "" ∨ ∀ head ∈ rows, head.toolName = toolName → head.isHead = true →
    head.version = version → ∀ other ∈ rows, other.On toolName head.branch →
      other.version = version

theorem headed_delete_iff {rows : List ToolRow} (headed : Headed rows)
    (wellFormed : WellFormed rows) (toolName version : String) :
    Headed (rows.filter fun row => !selects toolName version row) ↔
      DeletesWholeBranches rows toolName version := by
  constructor
  · intro still
    refine or_iff_not_imp_left.mpr fun given head hhead name flag isVersion other hother on => ?_
    by_contra stays
    have kept : other ∈ rows.filter fun row => !selects toolName version row := by
      rw [mem_deleted_iff]
      exact ⟨hother, fun gone => gone.2.elim given stays⟩
    obtain ⟨left, hleft, leftOn, leftFlag⟩ := still other kept
    rw [mem_deleted_iff] at hleft
    rw [on.1, on.2, ← name] at leftOn
    have same := wellFormed.heads head hhead left hleft.1 flag leftFlag leftOn
    exact hleft.2 (same ▸ ⟨name, .inr isVersion⟩)
  · intro whole row member
    rw [mem_deleted_iff] at member
    obtain ⟨hrow, kept⟩ := member
    obtain ⟨head, hhead, on, flag⟩ := headed row hrow
    refine ⟨head, ?_, on, flag⟩
    rw [mem_deleted_iff]
    refine ⟨hhead, ?_⟩
    rintro ⟨name, gone⟩
    have rowName : row.toolName = toolName := on.1.symm.trans name
    rcases gone with all | isVersion
    · exact kept ⟨rowName, .inl all⟩
    · rcases whole with all | whole
      · exact kept ⟨rowName, .inl all⟩
      · exact kept ⟨rowName, .inr
          (whole head hhead name flag isVersion row hrow ⟨rowName, on.2.symm⟩)⟩

/-! ## Runs -/

/--
The call takes no branch its head: an upsert of a stored version that is not the
head leaves the head to a higher version, and a deletion takes a head only with
its whole branch.
-/
def KeepsHeads (s : StoreState V) (action : Env V × Call V) : Prop :=
  match action.2 with
  | .upsertTool entry =>
      VectorRefused s entry ∨
        ∀ old ∈ s.tools.rows, old.toolId = mainToolId entry.toolName (resolvedVersion entry) →
          old.isHead = true ∨
            takesHead (flaggedHead s.tools.rows entry.toolName) (resolvedVersion entry) = false
  | .deleteTool toolName version => DeletesWholeBranches s.tools.rows toolName version
  | _ => True

/-- A call other than an upsert or a deletion keeps a head on every branch. -/
theorem headed_of_commit {env : Env V} {s : StoreState V} {next : List ToolRow} {call : Call V}
    (after : RowsAfter env s call next) (headed : Headed s.tools.rows)
    (notUpsert : ∀ entry, call ≠ .upsertTool entry)
    (notDelete : ∀ toolName version, call ≠ .deleteTool toolName version) : Headed next := by
  cases after with
  | same => exact headed
  | insert new _ =>
      rcases (makes_of_newRow new).1.isHead_or_upsert with flag | ⟨entry, isUpsert⟩
      · exact headed.insert (.inl flag)
      · exact absurd isUpsert (notUpsert entry)
  | reupsert => exact absurd rfl (notUpsert _)
  | delete => exact absurd rfl (notDelete _ _)

/-- The row of an upsert that leaves the head has a head above it. -/
theorem hasHead_of_upsertRow {env : Env V} {entry : ToolEntry V} {rows : List ToolRow}
    (flag : (upsertRow env entry rows).isHead = false) : HasHead rows entry.toolName "main" := by
  change takesHead (flaggedHead rows entry.toolName) (resolvedVersion entry) = false at flag
  cases found : flaggedHead rows entry.toolName with
  | none =>
      rw [found] at flag
      cases flag
  | some head =>
      obtain ⟨member, on, isHead⟩ := flaggedHead_mem found
      exact ⟨head, member, on, isHead⟩

theorem headed_upsert_iff (env : Env V) (entry : ToolEntry V) {s : StoreState V}
    (wellFormed : WellFormed s.tools.rows) (headed : Headed s.tools.rows) :
    Headed (upsertTool env entry s).2.tools.rows ↔ KeepsHeads s (env, .upsertTool entry) := by
  rcases upsertTool_tools env entry s with ⟨refused, unchanged⟩ | ⟨accepted, written⟩
  · rw [unchanged]
    exact ⟨fun _ => .inl refused, fun _ => headed⟩
  rw [written]
  have version := isValidSemver_resolveInitialVersion
    (orElse entry.version entry.definition.version) (normalizeOrigin (some entry.origin))
  rcases upsertInto_rows s.tools (upsertRow env entry s.tools.rows) with
    ⟨rows, fresh⟩ | ⟨rows, old, hold, same⟩
  · rw [rows]
    constructor
    · exact fun _ => .inr fun old hold taken => absurd taken (fresh.toolId old hold)
    · intro _
      refine headed.insert ?_
      by_cases flag : (upsertRow env entry s.tools.rows).isHead = true
      · exact .inl flag
      · exact .inr (hasHead_of_upsertRow (by simpa using flag))
  · rw [rows]
    have on := (wellFormed.on_of_toolId hold legalBranch_main version
      (same.trans (toolIdOn_main _ _).symm)).1
    cases flag : (upsertRow env entry s.tools.rows).isHead with
    | false =>
        constructor
        · exact fun _ => .inr fun _ _ _ => .inr flag
        · exact fun _ => headed.map (reupsert_keepsPlace _) (reupsert_isHead_of_not_head flag)
    | true =>
        rw [headed_reupsert_iff headed flag hold same on]
        constructor
        · intro isHead
          refine .inr fun other hother taken => .inl ?_
          rw [RowTable.eq_of_uniqueKey hother hold (taken.trans same.symm)]
          exact isHead
        · rintro (refused | keeps)
          · exact absurd refused accepted
          · rcases keeps old hold same with isHead | leaves
            · exact isHead
            · change takesHead _ _ = true at flag
              rw [leaves] at flag
              cases flag

/-- From a state with a head on every branch, a call keeps it so exactly if it takes none. -/
theorem headsUnique_step_iff (s : StoreState V) (action : Env V × Call V)
    (wellFormed : WellFormed s.tools.rows) (unique : HeadsUnique s.tools.rows) :
    HeadsUnique (step s action).tools.rows ↔ KeepsHeads s action := by
  rw [headsUnique_iff wellFormed] at unique
  rw [headsUnique_iff (step_wellFormed s action wellFormed)]
  obtain ⟨env, call⟩ := action
  have other (notUpsert : ∀ entry, call ≠ .upsertTool entry)
      (notDelete : ∀ toolName version, call ≠ .deleteTool toolName version) :
      Headed (step s (env, call)).tools.rows := by
    refine headed_of_commit (step_rows s (env, call)) ?_ notUpsert notDelete
    obtain ⟨change, relabels, rows⟩ := marked_rows s call
    rw [rows]
    exact unique.map relabels.toKeepsPlace relabels.isHead
  cases call with
  | upsertTool entry => exact headed_upsert_iff env entry wellFormed unique
  | deleteTool toolName version =>
      change Headed (deleteTool toolName version s).2.tools.rows ↔ DeletesWholeBranches _ _ _
      rw [← headed_delete_iff unique wellFormed, deleteTool_tools_rows]
  | _ => exact iff_of_true (other (by simp) (by simp)) trivial

/--
In a run from an empty store, every branch with rows has exactly one head in all
states exactly if no call takes a branch its head.
-/
theorem headsUnique_throughout_iff (vecExtension : Option (VecExtension V))
    (actions : List (Env V × Call V)) :
    Throughout step (fun s => HeadsUnique s.tools.rows) (StoreState.empty vecExtension) actions ↔
      StepsMeet step KeepsHeads (StoreState.empty vecExtension) actions := by
  refine throughout_iff_stepsMeet (fun s : StoreState V => WellFormed s.tools.rows)
    (fun s => HeadsUnique s.tools.rows) step_wellFormed headsUnique_step_iff
    (wellFormed_empty vecExtension) ?_ actions
  rintro toolName branch ⟨row, member, _⟩
  cases member

/-- After the head is deleted, the branch's other version stays without a head. -/
def headDeleted : List (Env Unit × Call Unit) :=
  [(atTime 1, .upsertTool (plainEntry "0.0.1")),
    (atTime 2, .createVersion "tool" (plainDefinition "second") "" "patch" "main" ""),
    (atTime 3, .deleteTool "tool" "0.0.2")]

theorem not_headsUnique_headDeleted :
    ¬ HeadsUnique (run step (StoreState.empty none) headDeleted).tools.rows := by
  intro unique
  have count := unique "tool" "main"
  revert count
  decide

end YouMi.Mcp.ToolStore
