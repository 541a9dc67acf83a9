import YouMi.Mcp.ToolStore.WellFormed

/-!
# The origin of a tool

Where a tool comes from should be a property of the tool, but it is a column of every
row.  `mark_external` sets it in all rows that are there.  A new version, a branch and a
promotion copy it from a row of the tool; a new row of an upsert has the origin of the
entry, whatever the other rows of the tool say.
-/

namespace YouMi.Mcp.ToolStore

open YouMi.Core YouMi.Library

variable {V : Type}

/-- Every row of the tool, on whatever branch, has the origin `external`. -/
def AllExternal (toolName : String) (rows : List ToolRow) : Prop :=
  ∀ row ∈ rows, row.toolName = toolName → row.origin = .external

/-- What `mark_external` needs: a row on `main` of the lineage, or of the tool, or nothing to do. -/
def Markable (toolName : String) (rows : List ToolRow) : Prop :=
  (lineageHead rows toolName).isSome ∨ AllExternal toolName rows

/--
The call is no upsert of the tool that inserts a row of another origin: the index
refuses its vector, it meets a row with its identifier, or its entry is external.
-/
def DeclaresExternal (toolName : String) (s : StoreState V) (action : Env V × Call V) : Prop :=
  match action.2 with
  | .upsertTool entry =>
      entry.toolName = toolName →
        VectorRefused s entry ∨
          (∃ row ∈ s.tools.rows, row.toolId = mainToolId entry.toolName (resolvedVersion entry)) ∨
          normalizeOrigin (some entry.origin) = .external
  | _ => True

/-! ## The row that is inserted -/

section Inserted

variable {env : Env V} {toolName : String} {s : StoreState V}

/-- The row of an upsert has the origin of the entry. -/
theorem newRow_upsert_external_iff (entry : ToolEntry V) :
    (∀ row ∈ newRow env s (.upsertTool entry), row.toolName = toolName → row.origin = .external) ↔
      DeclaresExternal toolName s (env, .upsertTool entry) := by
  unfold DeclaresExternal newRow
  dsimp only
  by_cases refused : VectorRefused s entry
  · simp [refused]
  rw [if_neg refused]
  cases isFree : free s.tools.rows (upsertRow env entry s.tools.rows) with
  | none =>
      refine iff_of_true (fun _ new => absurd new (Option.not_mem_none _)) fun _ => ?_
      exact .inr (.inl (free_eq_none_iff.mp isFree))
  | some row =>
      obtain ⟨apart, rfl⟩ := free_eq_some_iff.mp isFree
      have untaken : ¬ ∃ row ∈ s.tools.rows,
          row.toolId = mainToolId entry.toolName (resolvedVersion entry) :=
        fun ⟨row, member, taken⟩ => apart row member taken
      constructor
      · exact fun own here => .inr (.inr (own _ rfl here))
      · rintro declares row ⟨⟩ here
        exact ((declares here).resolve_left refused).resolve_left untaken

/-- Every other row is made of a row of the tool, and has its origin. -/
theorem Makes.external {rows : List ToolRow} {call : Call V} {row : ToolRow}
    (made : Makes env rows call row) (notUpsert : ∀ entry, call ≠ .upsertTool entry)
    (all : AllExternal toolName rows) (here : row.toolName = toolName) :
    row.origin = .external := by
  cases made with
  | upsert => exact absurd rfl (notUpsert _)
  | @version _ _ _ _ _ _ old _ top =>
      obtain ⟨member, name, _⟩ := newestOn_mem top
      exact all old member (name.trans here)
  | @branch _ _ _ base _ _ fork => exact all base (forkPoint_mem fork).1 here
  | @promotion _ _ _ parent _ _ _ _ flagged =>
      obtain ⟨member, ⟨name, _⟩, _⟩ := flaggedHead_mem flagged
      exact all parent member (name.trans here)

theorem newRow_external_iff (all : AllExternal toolName s.tools.rows) (call : Call V) :
    (∀ row ∈ newRow env s call, row.toolName = toolName → row.origin = .external) ↔
      DeclaresExternal toolName s (env, call) := by
  by_cases isUpsert : ∃ entry, call = .upsertTool entry
  · obtain ⟨entry, rfl⟩ := isUpsert
    exact newRow_upsert_external_iff entry
  · have notUpsert : ∀ entry, call ≠ .upsertTool entry := fun entry same => isUpsert ⟨entry, same⟩
    refine iff_of_true (fun row new here => ?_) ?_
    · exact (makes_of_newRow new).1.external notUpsert all here
    · unfold DeclaresExternal
      split
      · rename_i entry same
        exact absurd same (notUpsert entry)
      · trivial

end Inserted

/-! ## A call -/

/-- A change that leaves names alone and makes no row less external. -/
def KeepsOrigin (change : ToolRow → ToolRow) : Prop :=
  ∀ row, (change row).toolName = row.toolName ∧
    ((change row).origin = row.origin ∨ (change row).origin = .external)

theorem AllExternal.map {rows : List ToolRow} {change : ToolRow → ToolRow} {toolName : String}
    (keeps : KeepsOrigin change) (all : AllExternal toolName rows) :
    AllExternal toolName (rows.map change) := by
  unfold AllExternal
  rw [List.forall_mem_map]
  intro row member here
  rcases (keeps row).2 with same | external
  · rw [same]
    exact all row member ((keeps row).1.symm.trans here)
  · exact external

theorem makeRoom_keepsOrigin (row : ToolRow) : KeepsOrigin (makeRoom row) := by
  refine fun old => ⟨(makeRoom_keepsPlace row).toolName old, .inl ?_⟩
  unfold makeRoom demote
  split
  · dsimp only
    split <;> rfl
  · rfl

theorem reupsert_keepsOrigin (row : ToolRow) : KeepsOrigin (reupsert row) := by
  intro old
  unfold reupsert
  split
  · rename_i same
    rw [overwrite, if_pos same]
    exact ⟨rfl, .inl rfl⟩
  · exact makeRoom_keepsOrigin row old

theorem external_keepsOrigin (name : String) : KeepsOrigin (external name) := by
  intro row
  unfold external
  split
  · exact ⟨rfl, .inr rfl⟩
  · exact ⟨rfl, .inl rfl⟩

/-- Marking the tool itself needs no row to be external before. -/
theorem allExternal_map_external (toolName : String) (rows : List ToolRow) :
    AllExternal toolName (rows.map (external toolName)) := by
  unfold AllExternal
  rw [List.forall_mem_map]
  intro row _ here
  rw [(external_keepsOrigin toolName row).1] at here
  rw [external, if_pos here]

theorem allExternal_insert_iff {tools : ToolTable} {row : ToolRow} {toolName : String}
    (all : AllExternal toolName tools.rows) :
    AllExternal toolName (tools.rows.map (makeRoom (stored tools row)) ++ [stored tools row]) ↔
      (row.toolName = toolName → row.origin = .external) := by
  constructor
  · intro after
    exact after (stored tools row) (List.mem_append_right _ (List.mem_singleton_self _))
  · intro own other member
    rcases List.mem_append.mp member with old | new
    · exact all.map (makeRoom_keepsOrigin _) other old
    · rw [List.mem_singleton.mp new]
      exact own

theorem RowsAfter.allExternal_iff {env : Env V} {s : StoreState V} {call : Call V}
    {next : List ToolRow} {toolName : String} (after : RowsAfter env s call next)
    (all : AllExternal toolName s.tools.rows) :
    AllExternal toolName next ↔ DeclaresExternal toolName s (env, call) := by
  cases after with
  | same nothing =>
      rw [← newRow_external_iff all, nothing]
      exact iff_of_true all fun _ new => absurd new (Option.not_mem_none _)
  | insert new fresh =>
      rw [← newRow_external_iff all, new, allExternal_insert_iff all]
      simp
  | reupsert accepted taken =>
      exact iff_of_true (all.map (reupsert_keepsOrigin _)) fun _ => .inr (.inl taken)
  | delete => exact iff_of_true (fun row member => all row (List.mem_filter.mp member).1) trivial

theorem step_allExternal_iff {toolName : String} (s : StoreState V) (action : Env V × Call V)
    (all : AllExternal toolName s.tools.rows) :
    AllExternal toolName (step s action).tools.rows ↔ DeclaresExternal toolName s action := by
  obtain ⟨env, call⟩ := action
  have after := step_rows s (env, call)
  rcases marked_cases s call with same | ⟨name, rfl, rows⟩
  · rw [same] at after
    exact after.allExternal_iff all
  · have marks := all.map (external_keepsOrigin name)
    rw [← rows] at marks
    exact after.allExternal_iff marks

/-- The call of `mark_external` itself. -/
theorem step_markExternal_iff (env : Env V) (toolName : String) (s : StoreState V) :
    AllExternal toolName (step s (env, .markExternal toolName)).tools.rows ↔
      Markable toolName s.tools.rows := by
  by_cases found : (lineageHead s.tools.rows toolName).isSome
  · have marks : AllExternal toolName (marked s (.markExternal toolName)).tools.rows := by
      rw [marked, if_pos found]
      exact allExternal_map_external toolName s.tools.rows
    exact iff_of_true (((step_rows s (env, .markExternal toolName)).allExternal_iff marks).mpr
      trivial) (.inl found)
  · have unchanged : (step s (env, .markExternal toolName)).tools.rows = s.tools.rows := by
      change (markExternal env toolName s).2.tools.rows = s.tools.rows
      rw [markExternal, Option.not_isSome_iff_eq_none.mp found]
    rw [unchanged, Markable, or_iff_right found]

/-! ## Tools on `main` -/

/-- The call deletes no row of the tool. -/
def KeepsTool (toolName : String) : Call V → Prop
  | .deleteTool name _ => name ≠ toolName
  | _ => True

/-- A tool that has rows has one on `main`. -/
def RootedOnMain (toolName : String) (rows : List ToolRow) : Prop :=
  ∀ row ∈ rows, row.toolName = toolName → HasBranch rows toolName "main"

theorem Makes.hasBranch_main {env : Env V} {rows : List ToolRow} {call : Call V} {row : ToolRow}
    (made : Makes env rows call row) (rooted : RootedOnMain row.toolName rows) :
    row.branch = "main" ∨ HasBranch rows row.toolName "main" := by
  cases made with
  | upsert => exact .inl rfl
  | @version _ _ _ _ _ _ old _ top =>
      obtain ⟨member, name, _⟩ := newestOn_mem top
      exact .inr (rooted old member name)
  | @branch _ _ _ base _ _ fork =>
      exact .inr ⟨base, (forkPoint_mem fork).1, rfl, (forkPoint_mem fork).2.2⟩
  | promotion => exact .inl rfl

theorem HasBranch.map {rows : List ToolRow} {change : ToolRow → ToolRow} {toolName branch : String}
    (keeps : KeepsPlace change) (has : HasBranch rows toolName branch) :
    HasBranch (rows.map change) toolName branch := by
  obtain ⟨row, member, on⟩ := has
  exact ⟨change row, List.mem_map_of_mem member, keeps.on.mpr on⟩

theorem RootedOnMain.map {rows : List ToolRow} {change : ToolRow → ToolRow} {toolName : String}
    (keeps : KeepsPlace change) (rooted : RootedOnMain toolName rows) :
    RootedOnMain toolName (rows.map change) := by
  unfold RootedOnMain
  rw [List.forall_mem_map]
  exact fun row member here =>
    (rooted row member ((keeps.toolName row).symm.trans here)).map keeps

theorem RowsAfter.rootedOnMain {env : Env V} {s : StoreState V} {call : Call V}
    {next : List ToolRow} {toolName : String} (after : RowsAfter env s call next)
    (keeps : KeepsTool toolName call) (rooted : RootedOnMain toolName s.tools.rows) :
    RootedOnMain toolName next := by
  cases after with
  | same => exact rooted
  | @insert _ new isNew fresh =>
      have before := rooted.map (makeRoom_keepsPlace (stored s.tools new))
      rintro row member rfl
      have inside {branch : String} (has : HasBranch
          (s.tools.rows.map (makeRoom (stored s.tools new))) row.toolName branch) :
          HasBranch (s.tools.rows.map (makeRoom (stored s.tools new)) ++ [stored s.tools new])
            row.toolName branch := by
        obtain ⟨other, old, on⟩ := has
        exact ⟨other, List.mem_append_left _ old, on⟩
      rcases List.mem_append.mp member with old | last
      · exact inside (before row old rfl)
      · obtain rfl := List.mem_singleton.mp last
        rcases (makes_of_newRow isNew).1.hasBranch_main rooted with onMain | has
        · exact ⟨_, member, rfl, onMain⟩
        · exact inside (has.map (makeRoom_keepsPlace _))
  | reupsert => exact rooted.map (reupsert_keepsPlace _)
  | @delete name version =>
      intro row member here
      obtain ⟨main, old, on⟩ := rooted row (List.mem_filter.mp member).1 here
      exact ⟨main, mem_deleted_iff.mpr ⟨old, fun gone => keeps (gone.1.symm.trans on.1)⟩, on⟩

theorem step_rootedOnMain {toolName : String} (s : StoreState V) (action : Env V × Call V)
    (keeps : KeepsTool toolName action.2) (rooted : RootedOnMain toolName s.tools.rows) :
    RootedOnMain toolName (step s action).tools.rows := by
  obtain ⟨change, relabels, rows⟩ := marked_rows s action.2
  refine (step_rows s action).rootedOnMain keeps ?_
  rw [rows]
  exact rooted.map relabels.toKeepsPlace

/-- In a run that deletes no row of the tool, `mark_external` finds it if it exists. -/
theorem markable_of_keepsTool {toolName : String} (vecExtension : Option (VecExtension V))
    {actions : List (Env V × Call V)} (keeps : ∀ action ∈ actions, KeepsTool toolName action.2) :
    Markable toolName (run step (StoreState.empty vecExtension) actions).tools.rows := by
  have rooted := (throughout_of_stepsMeet (fun s => RootedOnMain toolName s.tools.rows)
    (fun s action rooted keeps => step_rootedOnMain s action keeps rooted)
    (by simp [RootedOnMain, StoreState.empty])
    (stepsMeet_of_forall step (StoreState.empty vecExtension) keeps)).final
  by_cases present : ∃ row ∈ (run step (StoreState.empty vecExtension) actions).tools.rows,
      row.toolName = toolName
  · obtain ⟨row, member, here⟩ := present
    obtain ⟨main, old, on⟩ := rooted row member here
    obtain ⟨top, isTop⟩ := exists_newestOn old on
    refine .inl ?_
    rw [lineageHead, isTop]
    simp
  · exact .inr fun row member here => absurd ⟨row, member, here⟩ present

/-! ## Runs -/

/--
After `mark_external` every row of the tool stays external exactly if the call found the
tool (or nothing was to be marked) and no later upsert inserts a row of another origin.
-/
theorem allExternal_throughout_iff (toolName : String) (vecExtension : Option (VecExtension V))
    (before : List (Env V × Call V)) (env : Env V) (later : List (Env V × Call V)) :
    Throughout step (fun s => AllExternal toolName s.tools.rows)
        (step (run step (StoreState.empty vecExtension) before) (env, .markExternal toolName))
        later ↔
      Markable toolName (run step (StoreState.empty vecExtension) before).tools.rows ∧
        StepsMeet step (DeclaresExternal toolName)
          (step (run step (StoreState.empty vecExtension) before) (env, .markExternal toolName))
          later := by
  by_cases markable : Markable toolName (run step (StoreState.empty vecExtension) before).tools.rows
  · rw [and_iff_right markable]
    exact throughout_iff_stepsMeet (fun _ => True) _ (fun _ _ _ => trivial)
      (fun s action _ all => step_allExternal_iff s action all) trivial
      ((step_markExternal_iff env toolName _).mpr markable) later
  · refine iff_of_false (fun always => ?_) (fun both => markable both.1)
    exact markable ((step_markExternal_iff env toolName _).mp (always 0))

/-- A tool is registered and marked, and then registered again at a higher version. -/
def upsertedMarked : List (Env Unit × Call Unit) :=
  [(atTime 1, .upsertTool (plainEntry "1.0.0")), (atTime 2, .markExternal "tool"),
    (atTime 3, .upsertTool (plainEntry "2.0.0"))]

theorem not_allExternal_upsertedMarked :
    (∀ action ∈ upsertedMarked, KeepsTool "tool" action.2) ∧
      ¬ AllExternal "tool" (run step (StoreState.empty none) upsertedMarked).tools.rows := by
  refine ⟨by simp [upsertedMarked, KeepsTool], fun all => ?_⟩
  have generated : (run step (StoreState.empty none) upsertedMarked).tools.rows.any
      (fun row => row.toolName = "tool" ∧ row.origin = .generated) = true := by rfl
  simp only [List.any_eq_true, decide_eq_true_eq] at generated
  obtain ⟨row, member, name, origin⟩ := generated
  have external := all row member name
  rw [origin] at external
  cases external

end YouMi.Mcp.ToolStore
