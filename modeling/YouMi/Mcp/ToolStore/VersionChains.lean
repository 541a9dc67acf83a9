import YouMi.Mcp.ToolStore.WellFormed

/-!
# Version chains of rows

Each call gives a row a version chain: the one of its entry or of the row it continues, and
else the name of its tool.
-/

namespace YouMi.Mcp.ToolStore

open YouMi.Library

variable {V : Type}

/-- Only a tool without a name has rows without a version chain. -/
def HaveChains (rows : List ToolRow) : Prop :=
  ∀ row ∈ rows, row.lineageId = "" → row.toolName = ""

theorem orElse_eq_empty {first second : String} (empty : orElse first second = "") :
    second = "" := by
  unfold orElse at empty
  split at empty
  · exact empty
  · exact absurd empty ‹_›

theorem Makes.hasChain {env : Env V} {rows : List ToolRow} {call : Call V} {row : ToolRow}
    (made : Makes env rows call row) (chains : HaveChains rows) :
    row.lineageId = "" → row.toolName = "" := by
  intro without
  cases made with
  | upsert => exact orElse_eq_empty without
  | version _ top =>
      obtain ⟨member, on⟩ := newestOn_mem top
      exact on.1.symm.trans (chains _ member without)
  | branch _ _ fork =>
      have named := chains _ (forkPoint_mem fork).1 without
      exact named
  | promotion => exact orElse_eq_empty without

theorem RowsAfter.haveChains {env : Env V} {s : StoreState V} {call : Call V}
    {next : List ToolRow} (after : RowsAfter env s call next) (wellFormed : WellFormed s.tools.rows)
    (chains : HaveChains s.tools.rows) : HaveChains next := by
  cases after with
  | same => exact chains
  | @insert _ row new _ =>
      have room := makeRoom_keepsPlace (stored s.tools row)
      intro other member without
      rcases List.mem_append.mp member with old | last
      · obtain ⟨before, here, rfl⟩ := List.mem_map.mp old
        rw [makeRoom_lineageId] at without
        exact (room.toolName before).trans (chains before here without)
      · rw [List.mem_singleton.mp last] at without ⊢
        exact (makes_of_newRow new).1.hasChain chains without
  | @reupsert entry =>
      have made : Makes env s.tools.rows (.upsertTool entry) (upsertRow env entry s.tools.rows) :=
        .upsert
      intro other member without
      obtain ⟨old, here, rfl⟩ := List.mem_map.mp member
      rw [(reupsert_keepsPlace _).toolName]
      by_cases same : old.toolId = (upsertRow env entry s.tools.rows).toolId
      · rw [ToolStore.reupsert, if_pos same, overwrite, if_pos same] at without
        have form := made.wellFormedRow wellFormed.each
        rw [form.toolId] at same
        have on := wellFormed.on_of_toolId here form.branch form.version same
        exact on.1.1.trans (made.hasChain chains without)
      · rw [ToolStore.reupsert, if_neg same, makeRoom_lineageId] at without
        exact chains old here without
  | delete =>
      exact fun row member without => chains row (List.mem_filter.mp member).1 without

/-- In every reachable state, the rows of tools with names have version chains. -/
theorem ReachableState.haveChains {s : StoreState V} (reach : ReachableState s) :
    HaveChains s.tools.rows := by
  obtain ⟨vecExtension, run⟩ := reach
  have init : WellFormed (StoreState.empty vecExtension : StoreState V).tools.rows ∧
      HaveChains (StoreState.empty vecExtension : StoreState V).tools.rows :=
    ⟨wellFormed_empty vecExtension, fun _ member => absurd member List.not_mem_nil⟩
  have both := Reachable.invariant
    (fun s : StoreState V => WellFormed s.tools.rows ∧ HaveChains s.tools.rows) init
    (fun s action kept => ?_) run
  · exact both.2
  · refine ⟨step_wellFormed s action kept.1, ?_⟩
    obtain ⟨change, relabels, rows⟩ := marked_rows s action.2
    refine (step_rows s action).haveChains (marked_wellFormed kept.1 action.2) ?_
    rw [rows]
    intro row member without
    obtain ⟨old, here, rfl⟩ := List.mem_map.mp member
    rw [relabels.lineageId] at without
    exact (relabels.toKeepsPlace.toolName old).trans (kept.2 old here without)

end YouMi.Mcp.ToolStore
