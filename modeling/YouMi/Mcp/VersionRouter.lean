import YouMi.Mcp.SkillTagTexts
import YouMi.Mcp.ToolStore.VersionTree

/-!
# Versions by the source of a call

`CallPathRouter` resolves a tool for a skill that is bound to it to the tool's first
version, and for every other call to the newest.  So what a skill calls stays the same
while versions come and go, unless the first version or the binding is taken away.
-/

namespace YouMi.Mcp.VersionRouter

open YouMi.Core YouMi.Library YouMi.Mcp.ToolStore YouMi.Mcp.SkillStore

variable {V W : Type}

inductive CallPathSource where
  | skill
  | crossDomain
  | direct
  deriving DecidableEq, Repr

/-- `resolve_bound_tool`: the newest skill with the binding. -/
def resolveBoundTool (boundToolName : String) (skills : SkillState W) : Option SkillEntry :=
  (newest (fun row => toLex (row.createdAt, row.id))
    (skills.skills.rows.filter fun row => row.boundToolName = boundToolName)).map SkillRow.toEntry

/-- `CallPathRouter.resolve`; there may be no store of skills. -/
def resolve (s : StoreState V) (skills : Option (SkillState W)) (toolName : String) :
    CallPathSource → Option (ToolEntry V)
  | .skill =>
      match skills with
      | none => getRootVersion s toolName
      | some skills =>
          match resolveBoundTool toolName skills with
          | none => getHeadVersion s toolName
          | some _ => getRootVersion s toolName
  | .crossDomain => getHeadVersion s toolName
  | .direct => getHeadVersion s toolName

def resolveToolId (s : StoreState V) (skills : Option (SkillState W)) (toolName : String)
    (source : CallPathSource) : Option String :=
  (resolve s skills toolName source).map fun entry => mainToolId entry.toolName entry.version

/-! ## Both stores -/

/-- A call of one of the two stores. -/
abbrev StoresCall (V W : Type) := (Env V × Call V) ⊕ (SkillEnv W × SkillEntry)

def storesStep (stores : StoreState V × SkillState W) :
    StoresCall V W → StoreState V × SkillState W
  | .inl action => (ToolStore.step stores.1 action, stores.2)
  | .inr action => (stores.1, SkillStore.step stores.2 action)

/-- Some skill is bound to the tool. -/
def Bound (toolName : String) (skills : SkillState W) : Prop :=
  ∃ row ∈ skills.skills.rows, row.boundToolName = toolName

theorem resolveBoundTool_eq_none_iff {toolName : String} {skills : SkillState W} :
    resolveBoundTool toolName skills = none ↔ ¬ Bound toolName skills := by
  rw [resolveBoundTool, Option.map_eq_none_iff, newest_eq_none_iff, List.filter_eq_nil_iff]
  simp [Bound]

/-- The upsert leaves some skill bound to the tool. -/
def KeepsBinding (toolName : String) (skills : SkillState W) (entry : SkillEntry) : Prop :=
  entry.boundToolName = toolName ∨
    ∃ row ∈ skills.skills.rows, row.boundToolName = toolName ∧
      row.skillId ≠ entry.skillName ++ "@" ++ entry.version

theorem bound_step_iff {toolName : String} {skills : SkillState W}
    (call : SkillEnv W × SkillEntry) (bound : Bound toolName skills) :
    Bound toolName (SkillStore.step skills call) ↔ KeepsBinding toolName skills call.2 := by
  obtain ⟨env, entry⟩ := call
  unfold Bound
  rw [skills_step]
  have skillId : (newRow env.now entry).skillId = entry.skillName ++ "@" ++ entry.version := rfl
  unfold SkillStore.upsertRow
  cases inserted : skills.skills.insert? (newRow env.now entry) with
  | some next =>
      obtain ⟨row, member, binds⟩ := bound
      refine iff_of_true ⟨row, ?_, binds⟩ (.inr ⟨row, member, binds, ?_⟩)
      · rw [RowTable.insert?_rows inserted]
        exact List.mem_append_left _ member
      · exact skillId ▸ RowTable.insert?_fresh inserted row member
  | none =>
      obtain ⟨old, here, taken⟩ := RowTable.insert?_eq_none_iff.mp inserted
      have same : old.skillId = (newRow env.now entry).skillId := taken
      rw [RowTable.update_rows]
      constructor
      · rintro ⟨_, member, binds⟩
        obtain ⟨row, there, rfl⟩ := List.mem_map.mp member
        unfold SkillStore.overwrite at binds
        split at binds
        · exact .inl binds
        · rename_i other
          exact .inr ⟨row, there, binds, other⟩
      · rintro (binds | ⟨row, there, binds, other⟩)
        · refine ⟨SkillStore.overwrite (newRow env.now entry) old, List.mem_map_of_mem here, ?_⟩
          rw [SkillStore.overwrite, if_pos same]
          exact binds
        · refine ⟨SkillStore.overwrite (newRow env.now entry) row, List.mem_map_of_mem there, ?_⟩
          rw [SkillStore.overwrite, if_neg (skillId ▸ other)]
          exact binds

/-! ## What a bound tool resolves to -/

/-- For skills the tool is bound, and resolves to the identifier. -/
def SkillsCall (toolName toolId : String) (stores : StoreState V × SkillState W) : Prop :=
  Bound toolName stores.2 ∧
    resolveToolId stores.1 (some stores.2) toolName .skill = some toolId

/-- The call leaves the binding and the first version of the tool. -/
def KeepsRoute (toolName : String) (stores : StoreState V × SkillState W) :
    StoresCall V W → Prop
  | .inl action => KeepsRoot toolName stores.1 action
  | .inr action => KeepsBinding toolName stores.2 action.2

/-- The calls of the tool store are ordinary ones. -/
def OrdinaryCall : StoresCall V W → Prop
  | .inl action => Ordinary action.2
  | .inr _ => True

theorem storesStep_ownLineages (stores : StoreState V × SkillState W) (call : StoresCall V W)
    (own : OwnLineages stores.1) (ordinary : OrdinaryCall call) :
    OwnLineages (storesStep stores call).1 := by
  cases call with
  | inl action => exact step_ownLineages stores.1 action own ordinary
  | inr action => exact own

/-- An entry of `main` has the name and the version its identifier is made of. -/
theorem skillsCall_iff {toolName toolId : String} {stores : StoreState V × SkillState W}
    (own : OwnLineages stores.1) :
    SkillsCall toolName toolId stores ↔ Bound toolName stores.2 ∧ RootIs toolName toolId stores.1 := by
  refine and_congr_right fun bound => ?_
  have toRoot : resolve stores.1 (some stores.2) toolName .skill =
      getRootVersion stores.1 toolName := by
    cases skill : resolveBoundTool toolName stores.2 with
    | none => exact absurd bound (resolveBoundTool_eq_none_iff.mp skill)
    | some _ => simp only [resolve, skill]
  unfold RootIs
  rw [resolveToolId, toRoot, getRootVersion, own.lineageRoot_eq, Option.map_map,
    Option.map_eq_some_iff]
  refine exists_congr fun root => and_congr_right fun found => ?_
  obtain ⟨member, on⟩ := oldestOn_mem found
  have identifier := own.1.toolId_of_on member on
  rw [toolIdOn_main, ← on.1] at identifier
  rw [identifier]
  rfl

/--
Along a run of both stores, what skills call for a tool stays the version it is just if
no call deletes that version, puts one before it, or takes the last binding away.
-/
theorem skillsCall_throughout_iff {toolName toolId : String}
    {stores : StoreState V × SkillState W} (own : OwnLineages stores.1)
    (calls : SkillsCall toolName toolId stores) {actions : List (StoresCall V W)}
    (ordinary : ∀ call ∈ actions, OrdinaryCall call) :
    Throughout storesStep (SkillsCall toolName toolId) stores actions ↔
      StepsMeet storesStep (KeepsRoute toolName) stores actions := by
  refine throughout_iff_stepsMeet_of_allowed (fun stores => OwnLineages stores.1)
    (SkillsCall toolName toolId) (fun _ call => OrdinaryCall call) storesStep_ownLineages ?_ own
    calls (stepsMeet_of_forall storesStep stores ordinary)
  intro stores call own calls ordinary
  rw [skillsCall_iff (storesStep_ownLineages stores call own ordinary)]
  obtain ⟨bound, isRoot⟩ := (skillsCall_iff own).mp calls
  cases call with
  | inl action => exact (and_iff_right bound).trans (rootIs_step_iff own ordinary isRoot)
  | inr action => exact (and_iff_left isRoot).trans (bound_step_iff action bound)

/-- A tool in its first version, and a skill that is bound to it. -/
def boundTool : StoreState Unit × SkillState Unit :=
  (ToolStore.step (.empty none) (atTime 1, .upsertTool (plainEntry "0.0.1")),
    SkillStore.step (.empty none) (⟨1, none⟩, { skillName := "sop", boundToolName := "tool" }))

/-- The tool is improved and promoted, and the skill is written again without its binding. -/
def improvedThenUnbound : List (StoresCall Unit Unit) :=
  [.inl (atTime 2, .createVersion "tool" (plainDefinition "second") "" "patch" "main" ""),
    .inl (atTime 3, .promoteToStable "tool" ""), .inr (⟨4, none⟩, { skillName := "sop" })]

theorem ownLineages_boundTool : OwnLineages boundTool.1 :=
  step_ownLineages _ _ (ownLineages_empty none) (.inl rfl)

theorem skillsCall_improvedThenUnbound :
    Throughout storesStep (SkillsCall "tool" "tool@0.0.1") boundTool improvedThenUnbound ↔
      StepsMeet storesStep (KeepsRoute "tool") boundTool improvedThenUnbound := by
  refine skillsCall_throughout_iff ownLineages_boundTool ⟨⟨_, List.mem_singleton_self _, rfl⟩, rfl⟩
    fun call member => ?_
  simp only [improvedThenUnbound, List.mem_cons, List.not_mem_nil, or_false] at member
  rcases member with rfl | rfl | rfl <;> trivial

end YouMi.Mcp.VersionRouter
