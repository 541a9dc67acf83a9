import YouMi.Mcp.ToolStore.Operations

/-!
# What a call does to the rows

Every call leaves the rows alone, inserts one row, overwrites the content of one
row, or deletes rows; marking a tool as external changes origins before that.
`step_rows` says this once, with the inserted row spelled out for each call, so
that no later proof opens an operation.
-/

namespace YouMi.Mcp.ToolStore

open YouMi.Core YouMi.Library YouMi.Python

variable {V : Type}

/-! ## Changes that keep a row in its place -/

/-- A change of rows that leaves the columns alone by which rows are identified and ordered. -/
structure KeepsPlace (change : ToolRow → ToolRow) : Prop where
  id : ∀ row, (change row).id = row.id
  toolId : ∀ row, (change row).toolId = row.toolId
  toolName : ∀ row, (change row).toolName = row.toolName
  version : ∀ row, (change row).version = row.version
  parentVersionId : ∀ row, (change row).parentVersionId = row.parentVersionId
  branch : ∀ row, (change row).branch = row.branch
  stage : ∀ row, (change row).stage = row.stage
  createdAt : ∀ row, (change row).createdAt = row.createdAt

/-- The row no longer is the head if it is on the branch. -/
def demote (toolName branch : String) (row : ToolRow) : ToolRow :=
  if row.On toolName branch then { row with isHead := false } else row

def external (toolName : String) (row : ToolRow) : ToolRow :=
  if row.toolName = toolName then { row with origin := .external } else row

/-- What the insertion of a row does to the others. -/
def makeRoom (row : ToolRow) : ToolRow → ToolRow :=
  if row.isHead then demote row.toolName row.branch else id

/-- What a second upsert of a row does to each row. -/
def reupsert (new old : ToolRow) : ToolRow :=
  if old.toolId = new.toolId then overwrite new old else makeRoom new old

theorem demote_keepsPlace (toolName branch : String) : KeepsPlace (demote toolName branch) := by
  constructor <;> intro row <;> unfold demote <;> split <;> rfl

theorem external_keepsPlace (toolName : String) : KeepsPlace (external toolName) := by
  constructor <;> intro row <;> unfold external <;> split <;> rfl

theorem makeRoom_keepsPlace (row : ToolRow) : KeepsPlace (makeRoom row) := by
  unfold makeRoom
  split
  · exact demote_keepsPlace _ _
  · constructor <;> intro row <;> rfl

theorem makeRoom_lineageId (row old : ToolRow) : (makeRoom row old).lineageId = old.lineageId := by
  unfold makeRoom
  split
  · unfold demote
    split <;> rfl
  · rfl

theorem overwrite_keepsPlace (new : ToolRow) : KeepsPlace (overwrite new) := by
  constructor <;> intro row <;> unfold overwrite <;> split <;> rfl

theorem reupsert_keepsPlace (new : ToolRow) : KeepsPlace (reupsert new) := by
  have room := makeRoom_keepsPlace new
  have written := overwrite_keepsPlace new
  constructor <;> intro row <;> unfold reupsert <;> split
  · exact written.id row
  · exact room.id row
  · exact written.toolId row
  · exact room.toolId row
  · exact written.toolName row
  · exact room.toolName row
  · exact written.version row
  · exact room.version row
  · exact written.parentVersionId row
  · exact room.parentVersionId row
  · exact written.branch row
  · exact room.branch row
  · exact written.stage row
  · exact room.stage row
  · exact written.createdAt row
  · exact room.createdAt row

namespace KeepsPlace

variable {change : ToolRow → ToolRow} (keeps : KeepsPlace change) {rows : List ToolRow}

include keeps

theorem age (row : ToolRow) : (change row).age = row.age := by
  rw [ToolRow.age, keeps.createdAt, keeps.id]
  rfl

theorem on {row : ToolRow} {toolName branch : String} :
    (change row).On toolName branch ↔ row.On toolName branch := by
  rw [ToolRow.On, keeps.toolName, keeps.branch]
  rfl

theorem branchRows (toolName branch : String) :
    branchRows (rows.map change) toolName branch =
      (ToolStore.branchRows rows toolName branch).map change := by
  unfold ToolStore.branchRows
  rw [List.filter_map]
  congr 2
  funext row
  simp [keeps.on]

theorem newestOn (toolName branch : String) :
    newestOn (rows.map change) toolName branch =
      (ToolStore.newestOn rows toolName branch).map change := by
  unfold ToolStore.newestOn
  rw [keeps.branchRows, newest_map keeps.age]

theorem rowById (toolId : String) :
    rowById (rows.map change) toolId = (ToolStore.rowById rows toolId).map change := by
  unfold ToolStore.rowById
  rw [List.find?_map]
  simp only [Function.comp_def, keeps.toolId]

end KeepsPlace

/-- A change of a row's content or origin that leaves its place, its flag and its lineage. -/
structure Relabels (change : ToolRow → ToolRow) : Prop extends KeepsPlace change where
  isHead : ∀ row, (change row).isHead = row.isHead
  lineageId : ∀ row, (change row).lineageId = row.lineageId

theorem external_relabels (toolName : String) : Relabels (external toolName) where
  toKeepsPlace := external_keepsPlace toolName
  isHead row := by
    unfold external
    split <;> rfl
  lineageId row := by
    unfold external
    split <;> rfl

theorem id_relabels : Relabels id := by
  constructor
  · constructor <;> intro row <;> rfl
  · exact fun _ => rfl
  · exact fun _ => rfl

section Relabels

variable {change : ToolRow → ToolRow} (relabels : Relabels change) (rows : List ToolRow)
  (name : String)

include relabels

theorem Relabels.flaggedHead :
    flaggedHead (rows.map change) name = (ToolStore.flaggedHead rows name).map change := by
  unfold ToolStore.flaggedHead
  rw [relabels.branchRows, List.filter_map, newest_map relabels.age]
  congr 3
  funext row
  exact relabels.isHead row

theorem Relabels.lineageHead :
    lineageHead (rows.map change) name = (ToolStore.lineageHead rows name).map change := by
  unfold ToolStore.lineageHead
  rw [relabels.newestOn, List.filter_map, newest_map relabels.age, Option.map_or]
  congr 3
  apply List.filter_congr
  intro row _
  simp [relabels.lineageId, relabels.branch]

end Relabels

/-! ## The tools table after each statement -/

theorem writeVec_tools {level : VecLevel} {rowId : Nat} {toolId toolName : String} {embedding : V}
    {s written : StoreState V}
    (done : writeVec level rowId toolId toolName embedding s = some written) :
    written.tools = s.tools := by
  unfold writeVec at done
  split at done
  · split at done
    · split at done <;> cases done <;> rfl
    · cases done
  · split at done <;> cases done <;> rfl

/-- What every write of a vector leaves true holds after both vectors of a row. -/
theorem embedToolRow_invariant {P : StoreState V → Prop}
    (vector : ∀ {level : VecLevel} {rowId : Nat} {toolId toolName : String} {embedding : V}
      {s written : StoreState V},
      writeVec level rowId toolId toolName embedding s = some written → P s → P written)
    (env : Env V) (rowId : Nat) (toolId toolName summaryL1 summaryL2 : String) {s : StoreState V}
    (holds : P s) : P (embedToolRow env rowId toolId toolName summaryL1 summaryL2 s) := by
  unfold embedToolRow
  split
  · exact holds
  · rename_i embed _
    split
    · exact holds
    · rename_i s' first
      obtain ⟨_, _, written⟩ := Option.bind_eq_some_iff.mp first
      have afterFirst := vector written holds
      split
      · exact afterFirst
      · cases second : (embed (toolName ++ ": " ++ summaryL2)).bind fun v =>
            writeVec .l2 rowId toolId toolName v s' with
        | none => exact afterFirst
        | some last =>
            obtain ⟨_, _, written⟩ := Option.bind_eq_some_iff.mp second
            exact vector written afterFirst

@[simp]
theorem embedToolRow_tools (env : Env V) (rowId : Nat)
    (toolId toolName summaryL1 summaryL2 : String) (s : StoreState V) :
    (embedToolRow env rowId toolId toolName summaryL1 summaryL2 s).tools = s.tools := by
  apply embedToolRow_invariant (P := fun next => next.tools = s.tools) _ env _ _ _ _ _ rfl
  intro _ _ _ _ _ before written done same
  exact (writeVec_tools done).trans same

@[simp]
theorem clearOtherHeads_rows (toolName branch toolId : String) (tools : ToolTable) :
    (clearOtherHeads toolName branch toolId tools).rows =
      tools.rows.map fun row =>
        if row.On toolName branch ∧ row.toolId ≠ toolId then { row with isHead := false }
        else row := rfl

/-- The row under a row id. -/
def ToolRow.numbered (row : ToolRow) (rowId : Nat) : ToolRow := { row with id := rowId }

/-- The row as the table stores it. -/
def stored (tools : ToolTable) (row : ToolRow) : ToolRow := row.numbered (tools.seq + 1)

/-- The row's identifier is free, and its row id is above all others. -/
structure Fresh (rows : List ToolRow) (row : ToolRow) : Prop where
  toolId : ∀ old ∈ rows, old.toolId ≠ row.toolId
  id : ∀ old ∈ rows, old.id < row.id

theorem fresh_stored {tools next : ToolTable} {row : ToolRow}
    (inserted : tools.insert? row = some next) : Fresh tools.rows (stored tools row) where
  toolId := RowTable.insert?_fresh inserted
  id old member := Nat.lt_succ_of_le (tools.rowid_le_seq old member)

/-- After an insertion, demoting all other rows of the branch is demoting all old rows. -/
theorem clearOtherHeads_insert {tools next : ToolTable} {row : ToolRow}
    (inserted : tools.insert? row = some next) :
    (clearOtherHeads row.toolName row.branch row.toolId next).rows =
      tools.rows.map (demote row.toolName row.branch) ++ [stored tools row] := by
  rw [clearOtherHeads_rows, RowTable.insert?_rows inserted, List.map_append]
  congr 1
  · apply List.map_congr_left
    intro old member
    have apart : old.toolId ≠ row.toolId := RowTable.insert?_fresh inserted old member
    simp [demote, apart]
  · simp [Keyed.assign, stored, ToolRow.numbered]

/-- An old row is older than a new one unless the clock went back. -/
theorem Fresh.age_lt_iff {rows : List ToolRow} {row old : ToolRow} (fresh : Fresh rows row)
    (member : old ∈ rows) : old.age < row.age ↔ old.createdAt ≤ row.createdAt := by
  have id := fresh.id old member
  rw [ToolStore.age_lt_iff]
  omega

theorem Fresh.age_le_iff {rows : List ToolRow} {row old : ToolRow} (fresh : Fresh rows row)
    (member : old ∈ rows) : old.age ≤ row.age ↔ old.createdAt ≤ row.createdAt := by
  have id := fresh.id old member
  rw [← not_lt, ToolStore.age_lt_iff]
  omega

/-- The newest row of the branch to which a row is added. -/
theorem newestOn_insert_self {rows : List ToolRow} {row : ToolRow} (fresh : Fresh rows row) :
    newestOn (rows.map (makeRoom row) ++ [row]) row.toolName row.branch =
      match newestOn rows row.toolName row.branch with
      | none => some row
      | some top => if top.createdAt ≤ row.createdAt then some row else some (makeRoom row top) := by
  have keeps := makeRoom_keepsPlace row
  have last : branchRows (rows.map (makeRoom row) ++ [row]) row.toolName row.branch =
      (branchRows rows row.toolName row.branch).map (makeRoom row) ++ [row] := by
    rw [← keeps.branchRows]
    simp [branchRows, ToolRow.On]
  rw [newestOn, last, newest_append_singleton, newest_map keeps.age, newestOn]
  cases top : newest ToolRow.age (branchRows rows row.toolName row.branch) with
  | none => rfl
  | some top =>
      dsimp only [Option.map_some]
      simp only [keeps.age, fresh.age_lt_iff (newestOn_mem top).1]

/-- The newest rows of the other branches stay. -/
theorem newestOn_insert_other {rows : List ToolRow} {row : ToolRow} {toolName branch : String}
    (away : ¬ row.On toolName branch) :
    newestOn (rows.map (makeRoom row) ++ [row]) toolName branch =
      (newestOn rows toolName branch).map (makeRoom row) := by
  have keeps := makeRoom_keepsPlace row
  have same : branchRows (rows.map (makeRoom row) ++ [row]) toolName branch =
      (branchRows rows toolName branch).map (makeRoom row) := by
    rw [← keeps.branchRows]
    simp [branchRows, away]
  rw [newestOn, same, newest_map keeps.age, newestOn]

theorem commitHead_rows {tools next : ToolTable} {row : ToolRow} (isHead : row.isHead = true)
    (committed : commitHead tools row = some next) :
    next.rows = tools.rows.map (makeRoom (stored tools row)) ++ [stored tools row] ∧
      Fresh tools.rows (stored tools row) := by
  obtain ⟨inserted, done, rfl⟩ := Option.map_eq_some_iff.mp committed
  have room : makeRoom (stored tools row) = demote row.toolName row.branch := if_pos isHead
  rw [room]
  exact ⟨clearOtherHeads_insert done, fresh_stored done⟩

theorem commitHead_eq_none_iff {tools : ToolTable} {row : ToolRow} :
    commitHead tools row = none ↔ ∃ old ∈ tools.rows, old.toolId = row.toolId := by
  rw [commitHead, Option.map_eq_none_iff, RowTable.insert?_eq_none_iff]
  rfl

theorem upsertInto_rows (tools : ToolTable) (row : ToolRow) :
    ((upsertInto tools row).rows =
        tools.rows.map (makeRoom (stored tools row)) ++ [stored tools row] ∧
      Fresh tools.rows (stored tools row)) ∨
    ((upsertInto tools row).rows = tools.rows.map (reupsert row) ∧
      ∃ old ∈ tools.rows, old.toolId = row.toolId) := by
  unfold upsertInto insertOrUpdate
  cases inserted : tools.insert? row with
  | some next =>
      refine .inl ⟨?_, fresh_stored inserted⟩
      dsimp only
      split
      · rename_i isHead
        have room : makeRoom (stored tools row) = demote row.toolName row.branch := if_pos isHead
        rw [room, clearOtherHeads_insert inserted]
      · rename_i notHead
        have room : makeRoom (stored tools row) = id := if_neg notHead
        rw [room, List.map_id, RowTable.insert?_rows inserted]
        rfl
  | none =>
      refine .inr ⟨?_, RowTable.insert?_eq_none_iff.mp inserted⟩
      dsimp only
      split
      · rename_i isHead
        rw [clearOtherHeads_rows, RowTable.update_rows, List.map_map]
        apply List.map_congr_left
        intro old _
        have written := overwrite_keepsPlace row
        simp only [Function.comp_apply, reupsert, makeRoom, if_pos isHead, written.toolId, written.on]
        by_cases same : old.toolId = row.toolId
        · simp [same]
        · simp [same, overwrite, demote]
      · rename_i notHead
        rw [RowTable.update_rows]
        apply List.map_congr_left
        intro old _
        rw [reupsert, makeRoom, if_neg notHead]
        by_cases same : old.toolId = row.toolId
        · simp [same]
        · simp [same, overwrite]

/-- The vector index refuses the vector of the entry. -/
def VectorRefused (s : StoreState V) (entry : ToolEntry V) : Prop :=
  ∃ vec embedding, s.vecExtension = some vec ∧ entry.embedding = some embedding ∧
    vec.accepts embedding = false

theorem writeVec_eq_none_iff {level : VecLevel} {rowId : Nat} {toolId toolName : String}
    {embedding : V} {s : StoreState V} :
    writeVec level rowId toolId toolName embedding s = none ↔
      ∃ vec, s.vecExtension = some vec ∧ vec.accepts embedding = false := by
  unfold writeVec
  split
  · rename_i vec loaded
    split
    · rename_i fits
      cases level <;> simp [loaded, fits]
    · rename_i refused
      simpa [loaded] using refused
  · rename_i absent
    split <;> simp [absent]

/-- An upsert raises if the vector index refuses the vector, and else writes its row. -/
theorem upsertTool_cases (env : Env V) (entry : ToolEntry V) (s : StoreState V) :
    (VectorRefused s entry ∧ upsertTool env entry s = (.error .vectorError, s)) ∨
    (¬ VectorRefused s entry ∧
      ∃ next, upsertTool env entry s = (.ok (upsertRow env entry s.tools.rows).toolId, next) ∧
        next.tools = upsertInto s.tools (upsertRow env entry s.tools.rows)) := by
  unfold upsertTool VectorRefused
  dsimp only
  split
  · rename_i absent
    exact .inr ⟨by simp [absent], _, rfl, rfl⟩
  · rename_i embedding given
    split
    · rename_i written done
      refine .inr ⟨?_, written, rfl, writeVec_tools done⟩
      rintro ⟨vec, vector, loaded, same, refused⟩
      rw [given] at same
      obtain rfl := Option.some.inj same
      cases done.symm.trans (writeVec_eq_none_iff.mpr ⟨vec, loaded, refused⟩)
    · rename_i failed
      obtain ⟨vec, loaded, refused⟩ := writeVec_eq_none_iff.mp failed
      exact .inl ⟨⟨vec, embedding, loaded, given, refused⟩, rfl⟩

theorem upsertTool_tools (env : Env V) (entry : ToolEntry V) (s : StoreState V) :
    (VectorRefused s entry ∧ (upsertTool env entry s).2.tools = s.tools) ∨
    (¬ VectorRefused s entry ∧ (upsertTool env entry s).2.tools =
      upsertInto s.tools (upsertRow env entry s.tools.rows)) := by
  rcases upsertTool_cases env entry s with ⟨refused, raises⟩ | ⟨accepted, next, returns, tools⟩
  · exact .inl ⟨refused, by rw [raises]⟩
  · exact .inr ⟨accepted, by rw [returns, tools]⟩

/-! ## The row a call inserts -/

instance (s : StoreState V) (entry : ToolEntry V) : Decidable (VectorRefused s entry) :=
  decidable_of_iff
    (∃ vec ∈ s.vecExtension, ∃ embedding ∈ entry.embedding, vec.accepts embedding = false) <| by
      simp [VectorRefused]

/-- The row, unless its identifier is taken. -/
def free (rows : List ToolRow) (row : ToolRow) : Option ToolRow :=
  if (rowById rows row.toolId).isSome then none else some row

def newVersionRow (env : Env V) (rows : List ToolRow) (toolName : String)
    (newDefinition : ToolDefinition) (bump branch changeKind : String) : Option ToolRow :=
  (newestOn rows toolName branch).bind fun old =>
    free rows (versionRow env toolName newDefinition bump branch changeKind old)

def newPromotedRow (env : Env V) (s : StoreState V) (toolName : String) : Option ToolRow :=
  (lineageHead s.tools.rows toolName).bind fun head =>
    if isStable head.version then none
    else
      (flaggedHead s.tools.rows toolName).bind fun parent =>
        free s.tools.rows (promotedRow env toolName (rowToEntry s head) parent)

/-- The row a call inserts in the state, if it inserts one. -/
def newRow (env : Env V) (s : StoreState V) : Call V → Option ToolRow
  | .upsertTool entry =>
      if VectorRefused s entry then none
      else free s.tools.rows (upsertRow env entry s.tools.rows)
  | .createVersion toolName newDefinition _ bump branch changeKind =>
      newVersionRow env s.tools.rows toolName newDefinition bump branch changeKind
  | .createBranch toolName branchName fromVersion =>
      if branchName = "main" ∨ ¬ LegalBranch branchName then none
      else
        (forkPoint s.tools.rows toolName fromVersion).bind fun base =>
          free s.tools.rows (branchRow env toolName branchName base)
  | .mergeBranch toolName source target =>
      match mergeInputs s.tools.rows toolName source target with
      | .error _ => none
      | .ok (base, ours, theirs) =>
          match mergedDefinition toolName base ours theirs with
          | .error _ => none
          | .ok definition =>
              newVersionRow env s.tools.rows toolName definition "minor" target ""
  | .rollback toolName toVersion =>
      (getTool s.tools.rows toolName toVersion).bind fun target =>
        newVersionRow env s.tools.rows toolName target.definition "patch" "main" ""
  | .promoteToStable toolName _ => newPromotedRow env s toolName
  | .markExternal toolName => newPromotedRow env s toolName
  | .deleteTool _ _ => none
  | .addTag _ _ => none

theorem free_eq_some_iff {rows : List ToolRow} {row new : ToolRow} :
    free rows row = some new ↔ (∀ old ∈ rows, old.toolId ≠ row.toolId) ∧ row = new := by
  rw [free, ← rowById_eq_none_iff]
  cases rowById rows row.toolId <;> simp

theorem free_eq_none_iff {rows : List ToolRow} {row : ToolRow} :
    free rows row = none ↔ ∃ old ∈ rows, old.toolId = row.toolId := by
  rw [Option.eq_none_iff_forall_ne_some]
  constructor
  · intro never
    by_contra apart
    push Not at apart
    exact never row (free_eq_some_iff.mpr ⟨apart, rfl⟩)
  · rintro ⟨old, member, taken⟩ new isFree
    exact (free_eq_some_iff.mp isFree).1 old member taken

/-! ## Calls -/

/-- The call commits a new version of the tool on the branch, bumped as told. -/
inductive CommitsVersion : Call V → String → String → String → String → Prop
  | createVersion {toolName newDefinition changelog bump branch changeKind} :
      CommitsVersion (.createVersion toolName newDefinition changelog bump branch changeKind)
        toolName branch bump changeKind
  | rollback {toolName toVersion} :
      CommitsVersion (.rollback toolName toVersion) toolName "main" "patch" ""
  | mergeBranch {toolName source target} :
      CommitsVersion (.mergeBranch toolName source target) toolName target "minor" ""

inductive Promotes : Call V → String → Prop
  | promoteToStable {toolName evidence} : Promotes (.promoteToStable toolName evidence) toolName
  | markExternal {toolName} : Promotes (.markExternal toolName) toolName

/-- Where the row comes from that a call inserts. -/
inductive Makes (env : Env V) (rows : List ToolRow) : Call V → ToolRow → Prop
  | upsert {entry} : Makes env rows (.upsertTool entry) (upsertRow env entry rows)
  | version {call toolName branch bump changeKind newDefinition old}
      (commits : CommitsVersion call toolName branch bump changeKind)
      (top : newestOn rows toolName branch = some old) :
      Makes env rows call (versionRow env toolName newDefinition bump branch changeKind old)
  | branch {toolName branchName fromVersion base} (notMain : branchName ≠ "main")
      (legal : LegalBranch branchName) (fork : forkPoint rows toolName fromVersion = some base) :
      Makes env rows (.createBranch toolName branchName fromVersion)
        (branchRow env toolName branchName base)
  | promotion {call toolName head parent} {s : StoreState V}
      (promotes : Promotes call toolName) (found : lineageHead rows toolName = some head)
      (candidate : isStable head.version = false)
      (flagged : flaggedHead rows toolName = some parent) :
      Makes env rows call (promotedRow env toolName (rowToEntry s head) parent)

theorem makes_of_newVersionRow {env : Env V} {rows : List ToolRow} {call : Call V}
    {toolName branch bump changeKind : String} {newDefinition : ToolDefinition} {row : ToolRow}
    (commits : CommitsVersion call toolName branch bump changeKind)
    (new : newVersionRow env rows toolName newDefinition bump branch changeKind = some row) :
    Makes env rows call row ∧ ∀ old ∈ rows, old.toolId ≠ row.toolId := by
  obtain ⟨old, top, isFree⟩ := Option.bind_eq_some_iff.mp new
  obtain ⟨apart, rfl⟩ := free_eq_some_iff.mp isFree
  exact ⟨.version commits top, apart⟩

theorem makes_of_newPromotedRow {env : Env V} {s : StoreState V} {call : Call V}
    {toolName : String} {row : ToolRow} (promotes : Promotes call toolName)
    (new : newPromotedRow env s toolName = some row) :
    Makes env s.tools.rows call row ∧ ∀ old ∈ s.tools.rows, old.toolId ≠ row.toolId := by
  obtain ⟨head, found, new⟩ := Option.bind_eq_some_iff.mp new
  split at new
  · cases new
  · rename_i candidate
    obtain ⟨parent, flagged, isFree⟩ := Option.bind_eq_some_iff.mp new
    obtain ⟨apart, rfl⟩ := free_eq_some_iff.mp isFree
    exact ⟨.promotion promotes found (by simpa using candidate) flagged, apart⟩

/-- The row that is inserted has one of the four forms, and its identifier is free. -/
theorem makes_of_newRow {env : Env V} {s : StoreState V} {call : Call V} {row : ToolRow}
    (new : newRow env s call = some row) :
    Makes env s.tools.rows call row ∧ ∀ old ∈ s.tools.rows, old.toolId ≠ row.toolId := by
  cases call with
  | upsertTool entry =>
      dsimp only [newRow] at new
      split at new
      · cases new
      · obtain ⟨apart, rfl⟩ := free_eq_some_iff.mp new
        exact ⟨.upsert, apart⟩
  | createVersion => exact makes_of_newVersionRow .createVersion new
  | createBranch toolName branchName fromVersion =>
      dsimp only [newRow] at new
      split at new
      · cases new
      · rename_i legal
        rw [not_or, not_not] at legal
        obtain ⟨base, fork, isFree⟩ := Option.bind_eq_some_iff.mp new
        obtain ⟨apart, rfl⟩ := free_eq_some_iff.mp isFree
        exact ⟨.branch legal.1 legal.2 fork, apart⟩
  | mergeBranch =>
      dsimp only [newRow] at new
      split at new
      · cases new
      · split at new
        · cases new
        · exact makes_of_newVersionRow .mergeBranch new
  | rollback =>
      obtain ⟨target, _, new⟩ := Option.bind_eq_some_iff.mp new
      exact makes_of_newVersionRow .rollback new
  | promoteToStable => exact makes_of_newPromotedRow .promoteToStable new
  | markExternal => exact makes_of_newPromotedRow .markExternal new
  | deleteTool => cases new
  | addTag => cases new

/-- The rows after a call, by the row it inserts. -/
inductive RowsAfter (env : Env V) (s : StoreState V) : Call V → List ToolRow → Prop
  | same {call} (nothing : newRow env s call = none) : RowsAfter env s call s.tools.rows
  | insert {call row} (new : newRow env s call = some row)
      (fresh : Fresh s.tools.rows (stored s.tools row)) :
      RowsAfter env s call
        (s.tools.rows.map (makeRoom (stored s.tools row)) ++ [stored s.tools row])
  | reupsert {entry} (accepted : ¬ VectorRefused s entry)
      (taken : ∃ old ∈ s.tools.rows, old.toolId = (upsertRow env entry s.tools.rows).toolId) :
      RowsAfter env s (.upsertTool entry)
        (s.tools.rows.map (reupsert (upsertRow env entry s.tools.rows)))
  | delete {toolName version} :
      RowsAfter env s (.deleteTool toolName version)
        (s.tools.rows.filter fun row => !selects toolName version row)

theorem upsertTool_rows (env : Env V) (entry : ToolEntry V) (s : StoreState V) :
    RowsAfter env s (.upsertTool entry) (upsertTool env entry s).2.tools.rows := by
  rcases upsertTool_tools env entry s with ⟨refused, unchanged⟩ | ⟨accepted, written⟩
  · rw [unchanged]
    exact .same (if_pos refused)
  · rw [written]
    have planned : newRow env s (.upsertTool entry) =
        free s.tools.rows (upsertRow env entry s.tools.rows) := if_neg accepted
    rcases upsertInto_rows s.tools (upsertRow env entry s.tools.rows) with
      ⟨rows, fresh⟩ | ⟨rows, taken⟩
    · rw [rows]
      exact .insert (planned.trans (free_eq_some_iff.mpr ⟨fresh.toolId, rfl⟩)) fresh
    · rw [rows]
      exact .reupsert accepted taken

/-- What is left to show of a call that commits a head. -/
theorem commitHead_cases {env : Env V} {s : StoreState V} {call : Call V} {row : ToolRow}
    (isHead : row.isHead = true) (planned : newRow env s call = free s.tools.rows row) :
    (commitHead s.tools row = none ∧ newRow env s call = none) ∨
      ∃ next, commitHead s.tools row = some next ∧ RowsAfter env s call next.rows := by
  cases committed : commitHead s.tools row with
  | none =>
      have taken := commitHead_eq_none_iff.mp committed
      exact .inl ⟨rfl, planned.trans (free_eq_none_iff.mpr taken)⟩
  | some next =>
      obtain ⟨rows, fresh⟩ := commitHead_rows isHead committed
      refine .inr ⟨next, rfl, ?_⟩
      rw [rows]
      exact .insert (planned.trans (free_eq_some_iff.mpr ⟨fresh.toolId, rfl⟩)) fresh

section CreateVersion

variable {env : Env V} {toolName bump branch changeKind : String} {old : ToolRow}
  {s : StoreState V}

/-- A new version whose identifier is free is committed above the branch's newest row. -/
theorem createVersion_ok (top : newestOn s.tools.rows toolName branch = some old)
    (newDefinition : ToolDefinition) (changelog : String) {next : ToolTable}
    (committed : commitHead s.tools
      (versionRow env toolName newDefinition bump branch changeKind old) = some next) :
    (createVersion env toolName newDefinition changelog bump branch changeKind s).1 =
        .ok (toolIdOn toolName branch (nextVersion old.version bump changeKind)) ∧
      (createVersion env toolName newDefinition changelog bump branch changeKind s).2.tools =
        next := by
  rw [createVersion, top]
  dsimp only
  rw [committed]
  refine ⟨rfl, ?_⟩
  dsimp only
  split <;> exact embedToolRow_tools ..

theorem createVersion_taken (top : newestOn s.tools.rows toolName branch = some old)
    (newDefinition : ToolDefinition) (changelog : String)
    (taken : commitHead s.tools
      (versionRow env toolName newDefinition bump branch changeKind old) = none) :
    createVersion env toolName newDefinition changelog bump branch changeKind s =
      (.error .integrityError, s) := by
  rw [createVersion, top]
  dsimp only
  rw [taken]

theorem createVersion_missing (absent : newestOn s.tools.rows toolName branch = none)
    (newDefinition : ToolDefinition) (changelog : String) :
    createVersion env toolName newDefinition changelog bump branch changeKind s =
      (.error (.toolNotFound toolName), s) := by
  rw [createVersion, absent]

end CreateVersion

theorem createVersion_rows (env : Env V) {call : Call V} {toolName branch bump changeKind : String}
    (newDefinition : ToolDefinition) (changelog : String) {s : StoreState V}
    (planned : newRow env s call =
      newVersionRow env s.tools.rows toolName newDefinition bump branch changeKind) :
    RowsAfter env s call
      (createVersion env toolName newDefinition changelog bump branch changeKind s).2.tools.rows := by
  unfold newVersionRow at planned
  cases top : newestOn s.tools.rows toolName branch with
  | none =>
      rw [createVersion_missing top]
      exact .same (planned.trans (by rw [top]; rfl))
  | some old =>
      rw [top] at planned
      rcases commitHead_cases rfl planned with ⟨taken, nothing⟩ | ⟨next, committed, after⟩
      · rw [createVersion_taken top newDefinition changelog taken]
        exact .same nothing
      · rw [(createVersion_ok top newDefinition changelog committed).2]
        exact after

/-- An upsert of a row that is there inserts none. -/
theorem newRow_upsert_taken {env : Env V} {s : StoreState V} {entry : ToolEntry V}
    (taken : ∃ old ∈ s.tools.rows, old.toolId = (upsertRow env entry s.tools.rows).toolId) :
    newRow env s (.upsertTool entry) = none := by
  dsimp only [newRow]
  split
  · rfl
  · exact free_eq_none_iff.mpr taken

theorem rollback_rows (env : Env V) (toolName toVersion : String) (s : StoreState V) :
    RowsAfter env s (.rollback toolName toVersion)
      (rollback env toolName toVersion s).2.tools.rows := by
  unfold rollback
  split
  · rename_i absent
    exact .same (by rw [newRow, absent]; rfl)
  · rename_i target found
    exact createVersion_rows env _ _ (by rw [newRow, found]; rfl)

theorem mergeBranch_rows (env : Env V) (toolName source target : String) (s : StoreState V) :
    RowsAfter env s (.mergeBranch toolName source target)
      (mergeBranch env toolName source target s).2.tools.rows := by
  unfold mergeBranch
  split
  · rename_i failed
    exact .same (by rw [newRow, failed])
  · rename_i found
    split
    · rename_i conflict
      exact .same (by rw [newRow, found]; dsimp only; rw [conflict])
    · rename_i merged
      exact createVersion_rows env _ _ (by rw [newRow, found]; dsimp only; rw [merged])

theorem createBranch_rows (env : Env V) (toolName branchName fromVersion : String)
    (s : StoreState V) :
    RowsAfter env s (.createBranch toolName branchName fromVersion)
      (createBranch env toolName branchName fromVersion s).2.tools.rows := by
  unfold createBranch
  split
  · rename_i main
    exact .same (if_pos (.inl main))
  · rename_i notMain
    split
    · rename_i separator
      exact .same (if_pos (.inr fun legal => separator.elim legal.2 legal.1))
    · rename_i legal
      rw [not_or] at legal
      have planned : newRow env s (.createBranch toolName branchName fromVersion) =
          (forkPoint s.tools.rows toolName fromVersion).bind fun base =>
            free s.tools.rows (branchRow env toolName branchName base) :=
        if_neg (not_or.mpr ⟨notMain, not_not.mpr ⟨legal.2, legal.1⟩⟩)
      split
      · rename_i absent
        exact .same (planned.trans (by rw [absent]; rfl))
      · rename_i base fork
        rw [fork] at planned
        dsimp only
        split
        · rename_i taken
          exact .same (planned.trans (if_pos taken))
        · rcases commitHead_cases rfl planned with ⟨taken, nothing⟩ | ⟨next, committed, after⟩
          · rw [taken]
            exact .same nothing
          · rw [committed]
            dsimp only
            rw [embedToolRow_tools]
            exact after

theorem promoteToStable_rows (env : Env V) {call : Call V} {toolName : String}
    (evidence : String) {s : StoreState V}
    (planned : newRow env s call = newPromotedRow env s toolName) :
    RowsAfter env s call (promoteToStable env toolName evidence s).2.tools.rows := by
  unfold newPromotedRow at planned
  unfold promoteToStable
  split
  · rename_i absent
    exact .same (planned.trans (by rw [absent]; rfl))
  · rename_i head found
    rw [found, Option.bind_some] at planned
    split
    · rename_i stable
      exact .same (planned.trans (if_pos stable))
    · rename_i candidate
      rw [if_neg candidate] at planned
      split
      · rename_i absent
        exact .same (planned.trans (by rw [absent]; rfl))
      · rename_i parent flagged
        rw [flagged] at planned
        dsimp only
        split
        · rename_i taken
          exact .same (planned.trans (if_pos taken))
        · rcases commitHead_cases rfl planned with ⟨taken, nothing⟩ | ⟨next, committed, after⟩
          · rw [taken]
            exact .same nothing
          · rw [committed]
            dsimp only
            rw [embedToolRow_tools]
            exact after

/-- The state after `mark_external` has marked the tool; no other call marks anything. -/
def marked (s : StoreState V) : Call V → StoreState V
  | .markExternal toolName =>
      if (lineageHead s.tools.rows toolName).isSome then
        { s with tools := setExternal toolName s.tools }
      else s
  | _ => s

theorem setExternal_rows (toolName : String) (tools : ToolTable) :
    (setExternal toolName tools).rows = tools.rows.map (external toolName) := rfl

theorem marked_cases (s : StoreState V) (call : Call V) :
    marked s call = s ∨ ∃ toolName, call = .markExternal toolName ∧
      (marked s call).tools.rows = s.tools.rows.map (external toolName) := by
  unfold marked
  split
  · rename_i toolName
    split
    · exact .inr ⟨toolName, rfl, rfl⟩
    · exact .inl rfl
  · exact .inl rfl

/-- Marking a tool relabels its rows. -/
theorem marked_rows (s : StoreState V) (call : Call V) :
    ∃ change, Relabels change ∧ (marked s call).tools.rows = s.tools.rows.map change := by
  rcases marked_cases s call with same | ⟨toolName, _, rows⟩
  · exact ⟨id, id_relabels, by rw [same, List.map_id]⟩
  · exact ⟨external toolName, external_relabels toolName, rows⟩

theorem markExternal_rows (env : Env V) (toolName : String) (s : StoreState V) :
    RowsAfter env (marked s (.markExternal toolName)) (.markExternal toolName)
      (markExternal env toolName s).2.tools.rows := by
  unfold markExternal
  dsimp only [marked]
  cases found : lineageHead s.tools.rows toolName with
  | none =>
      rw [if_neg (by simp)]
      exact .same (by rw [newRow, newPromotedRow, found]; rfl)
  | some head =>
      rw [if_pos (by rfl)]
      dsimp only
      split
      · rename_i stable
        refine .same ?_
        have relabels := external_relabels toolName
        rw [newRow, newPromotedRow, setExternal_rows, relabels.lineageHead, found, Option.map_some,
          Option.bind_some, relabels.version]
        exact if_pos stable
      · exact promoteToStable_rows env _ rfl

/-- The row is not among those a deletion is about. -/
def Stays (toolName version : String) (row : ToolRow) : Prop :=
  ¬ (row.toolName = toolName ∧ (version = "" ∨ row.version = version))

theorem mem_deleted_iff {rows : List ToolRow} {toolName version : String} {row : ToolRow} :
    row ∈ rows.filter (fun row => !selects toolName version row) ↔
      row ∈ rows ∧ Stays toolName version row := by
  rw [List.mem_filter, Bool.not_eq_true', selects, decide_eq_false_iff_not]
  rfl

/-- A deletion that finds nothing to delete deletes nothing either way. -/
theorem deleteTool_tools_rows (toolName version : String) (s : StoreState V) :
    (deleteTool toolName version s).2.tools.rows =
      s.tools.rows.filter fun row => !selects toolName version row := by
  unfold deleteTool
  dsimp only
  split
  · rename_i nothing
    refine (List.filter_eq_self.mpr fun row member => ?_).symm
    simpa using List.filter_eq_nil_iff.mp nothing.2 row member
  · rfl

theorem addTag_tools (toolName tag : String) (s : StoreState V) :
    (addTag toolName tag s).tools = s.tools := by
  unfold addTag
  split
  · rfl
  · split <;> rfl

/-- The row a call inserts, `mark_external` having marked the tool before. -/
def insertedRow (s : StoreState V) (action : Env V × Call V) : Option ToolRow :=
  newRow action.1 (marked s action.2) action.2

/-- What any call does to the rows, after `mark_external` has changed origins. -/
theorem step_rows (s : StoreState V) (action : Env V × Call V) :
    RowsAfter action.1 (marked s action.2) action.2 (step s action).tools.rows := by
  obtain ⟨env, call⟩ := action
  cases call with
  | upsertTool entry => exact upsertTool_rows env entry s
  | createVersion => exact createVersion_rows env _ _ rfl
  | createBranch toolName branchName fromVersion =>
      exact createBranch_rows env toolName branchName fromVersion s
  | mergeBranch toolName source target => exact mergeBranch_rows env toolName source target s
  | rollback toolName toVersion => exact rollback_rows env toolName toVersion s
  | promoteToStable => exact promoteToStable_rows env _ rfl
  | markExternal toolName => exact markExternal_rows env toolName s
  | deleteTool toolName version =>
      change RowsAfter env s _ (deleteTool toolName version s).2.tools.rows
      rw [deleteTool_tools_rows]
      exact .delete
  | addTag toolName tag =>
      change RowsAfter env s _ (addTag toolName tag s).tools.rows
      rw [addTag_tools]
      exact .same rfl

/-! ## What calls leave true -/

/-- A new tools table, a new changelog and a written vector leave the property true. -/
structure Undisturbed (P : StoreState V → Prop) : Prop where
  tools : ∀ {s : StoreState V} (tools : ToolTable), P s → P { s with tools }
  changelogs : ∀ {s : StoreState V} (toolChangelogs : List Changelog), P s →
    P { s with toolChangelogs }
  vector : ∀ {level : VecLevel} {rowId : Nat} {toolId toolName : String} {embedding : V}
    {s written : StoreState V},
    writeVec level rowId toolId toolName embedding s = some written → P s → P written

namespace Undisturbed

variable {P : StoreState V → Prop} (kept : Undisturbed P) {s : StoreState V} (holds : P s)
  (env : Env V)

include kept holds

theorem upsertTool (entry : ToolEntry V) : P (upsertTool env entry s).2 := by
  unfold ToolStore.upsertTool
  dsimp only
  split
  · exact kept.tools _ holds
  · split
    · rename_i done
      exact kept.vector done (kept.tools _ holds)
    · exact holds

theorem createVersion (toolName : String) (newDefinition : ToolDefinition)
    (changelog bump branch changeKind : String) :
    P (createVersion env toolName newDefinition changelog bump branch changeKind s).2 := by
  unfold ToolStore.createVersion
  split
  · exact holds
  · dsimp only
    split
    · exact holds
    · rename_i next _
      have embedded := embedToolRow_invariant kept.vector env
      split
      · exact embedded _ _ _ _ _ (kept.tools next holds)
      · exact kept.changelogs _ (embedded _ _ _ _ _ (kept.tools next holds))

theorem createBranch (toolName branchName fromVersion : String) :
    P (createBranch env toolName branchName fromVersion s).2 := by
  unfold ToolStore.createBranch
  split
  · exact holds
  · split
    · exact holds
    · split
      · exact holds
      · dsimp only
        split
        · exact holds
        · split
          · exact holds
          · exact embedToolRow_invariant kept.vector env _ _ _ _ _ (kept.tools _ holds)

theorem mergeBranch (toolName source target : String) :
    P (mergeBranch env toolName source target s).2 := by
  unfold ToolStore.mergeBranch
  split
  · exact holds
  · split
    · exact holds
    · exact kept.createVersion holds ..

theorem rollback (toolName toVersion : String) : P (rollback env toolName toVersion s).2 := by
  unfold ToolStore.rollback
  split
  · exact holds
  · exact kept.createVersion holds ..

theorem promoteToStable (toolName evidence : String) :
    P (promoteToStable env toolName evidence s).2 := by
  unfold ToolStore.promoteToStable
  split
  · exact holds
  · split
    · exact holds
    · split
      · exact holds
      · dsimp only
        split
        · exact holds
        · split
          · exact holds
          · apply embedToolRow_invariant kept.vector
            exact kept.changelogs _ (kept.tools _ holds)

theorem markExternal (toolName : String) : P (markExternal env toolName s).2 := by
  unfold ToolStore.markExternal
  split
  · exact holds
  · dsimp only
    split
    · exact kept.tools _ holds
    · exact kept.promoteToStable (kept.tools _ holds) ..

/-- Only deleting and tagging have to be looked at. -/
theorem step {call : Call V}
    (deleted : ∀ toolName version, call = .deleteTool toolName version →
      P (deleteTool toolName version s).2)
    (tagged : ∀ toolName tag, call = .addTag toolName tag → P (addTag toolName tag s)) :
    P (step s (env, call)) := by
  cases call with
  | upsertTool entry => exact kept.upsertTool holds env entry
  | createVersion => exact kept.createVersion holds ..
  | createBranch => exact kept.createBranch holds ..
  | mergeBranch => exact kept.mergeBranch holds ..
  | rollback => exact kept.rollback holds ..
  | promoteToStable => exact kept.promoteToStable holds ..
  | markExternal => exact kept.markExternal holds ..
  | deleteTool toolName version => exact deleted toolName version rfl
  | addTag toolName tag => exact tagged toolName tag rfl

end Undisturbed

end YouMi.Mcp.ToolStore
