import YouMi.Library.Runs
import YouMi.Mcp.DictMerge
import YouMi.Mcp.ToolStore.Rows

/-!
# The operations of the tool store

Each operation of `ToolStore` as a function from a state to its result and the
state it leaves; an exception leaves the state of the last commit.  What the
store takes from outside (the clock, the chat and the embedding client) comes
with each call, so nothing is assumed about successive readings of the clock.
-/

namespace YouMi.Mcp.ToolStore

open YouMi.Core YouMi.Library YouMi.Python

inductive StoreError where
  /-- `ValueError`: the tool has no row on the branch. -/
  | toolNotFound (toolName : String)
  /-- `ValueError`: `main` is reserved. -/
  | reservedBranch
  | invalidBranchName (branch : String)
  | forkPointNotFound (toolName fromVersion : String)
  | branchExists (branch toolName : String)
  | branchNotFound (branch toolName : String)
  | noMergeBase (source : String)
  | mergeBaseNotFound (baseId : String)
  | rollbackTargetNotFound (toolName toVersion : String)
  /-- Pydantic's `ValidationError`, which is a `ValueError`. -/
  | validationError
  /-- `VersionConflictError`. -/
  | versionConflict (toolName : String) (conflicts : List String)
  /-- `sqlite3.IntegrityError`: a `tool_id` is there already. -/
  | integrityError
  /-- The vector index refuses a vector. -/
  | vectorError
  deriving DecidableEq, Repr

def StoreError.isValueError : StoreError → Bool
  | .versionConflict _ _ => false
  | .integrityError => false
  | .vectorError => false
  | _ => true

inductive VecLevel where
  | l1
  | l2
  deriving DecidableEq, Repr

/-- A row of the table that holds vectors as JSON. -/
structure VecRow (V : Type) where
  toolId : String
  toolName : String
  embedding : V
  level : VecLevel

/-- The loaded `sqlite-vec` extension: what is stored of a vector, and which vectors fit the index. -/
structure VecExtension (V : Type) where
  normalize : V → V
  accepts : V → Bool

structure Changelog where
  toolId : String
  changeType : String
  description : String

structure StoreState (V : Type) where
  tools : ToolTable
  toolChangelogs : List Changelog
  /-- Pairs of a `tool_id` and a tag. -/
  toolTags : List (String × String)
  /-- Pairs of an alias and a `tool_id`. -/
  toolAliases : List (String × String)
  toolDependencies : List (String × String)
  vecTools : List (VecRow V)
  /-- Pairs of a row id and a vector. -/
  vecToolsIdx : List (Nat × V)
  vecToolsL2Idx : List (Nat × V)
  vecExtension : Option (VecExtension V)

def StoreState.empty {V : Type} (vecExtension : Option (VecExtension V)) : StoreState V :=
  ⟨.empty, [], [], [], [], [], [], [], vecExtension⟩

/-- What a call meets outside of the store. -/
structure Env (V : Type) where
  now : Nat
  chat : Option Chat
  /-- The embedding client, if there is one; nothing for a text whose embedding raises. -/
  embedOne : Option (String → Option V)

variable {V : Type}

abbrev Outcome (V α : Type) := Except StoreError α × StoreState V

/-! ## Vectors -/

/-- `_write_vec`; nothing where the index refuses the vector. -/
def writeVec (level : VecLevel) (rowId : Nat) (toolId toolName : String) (embedding : V)
    (s : StoreState V) : Option (StoreState V) :=
  match s.vecExtension with
  | some vec =>
      if vec.accepts embedding then
        match level with
        | .l1 =>
            some { s with
              vecToolsIdx := s.vecToolsIdx.filter (fun entry => entry.1 ≠ rowId) ++
                [(rowId, vec.normalize embedding)] }
        | .l2 =>
            some { s with
              vecToolsL2Idx := s.vecToolsL2Idx.filter (fun entry => entry.1 ≠ rowId) ++
                [(rowId, vec.normalize embedding)] }
      else none
  | none =>
      if s.vecTools.any (fun row => row.toolId = toolId ∧ row.level = level) then
        some { s with
          vecTools := s.vecTools.map fun row =>
            if row.toolId = toolId ∧ row.level = level then { row with embedding := embedding }
            else row }
      else some { s with vecTools := s.vecTools ++ [⟨toolId, toolName, embedding, level⟩] }

/-- `_embed_tool_row`: both vectors of a new row; whatever fails is left out. -/
def embedToolRow (env : Env V) (rowId : Nat) (toolId toolName summaryL1 summaryL2 : String)
    (s : StoreState V) : StoreState V :=
  match env.embedOne with
  | none => s
  | some embed =>
      match (embed (toolName ++ ": " ++ summaryL1)).bind fun v =>
          writeVec .l1 rowId toolId toolName v s with
      | none => s
      | some s =>
          if summaryL2 = "" then s
          else
            ((embed (toolName ++ ": " ++ summaryL2)).bind fun v =>
              writeVec .l2 rowId toolId toolName v s).getD s

/-- `_delete_vec_for_tool` for each of the rows. -/
def deleteVecs (deleted : List ToolRow) (s : StoreState V) : StoreState V :=
  let byRowId (entries : List (Nat × V)) :=
    if s.vecExtension.isSome then
      entries.filter fun entry => !deleted.any fun row => row.id = entry.1
    else entries
  { s with
    vecToolsIdx := byRowId s.vecToolsIdx
    vecToolsL2Idx := byRowId s.vecToolsL2Idx
    vecTools := s.vecTools.filter fun entry => !deleted.any fun row => row.toolId = entry.toolId }

/-! ## Statements on the tools table -/

/-- `UPDATE tools SET is_head = 0` for the other rows of the branch. -/
def clearOtherHeads (toolName branch toolId : String) (tools : ToolTable) : ToolTable :=
  tools.update
    (fun row =>
      if row.On toolName branch ∧ row.toolId ≠ toolId then { row with isHead := false } else row)
    (fun row => by split <;> rfl) (fun row => by split <;> rfl)

/-- `ON CONFLICT(tool_id) DO UPDATE SET …`: the columns a second upsert replaces. -/
def overwrite (new old : ToolRow) : ToolRow :=
  if old.toolId = new.toolId then
    { old with
      summary := new.summary
      definition := new.definition
      riskLevel := new.riskLevel
      requiredPermissions := new.requiredPermissions
      lineageId := new.lineageId
      summaryL2 := new.summaryL2 }
  else old

def insertOrUpdate (tools : ToolTable) (row : ToolRow) : ToolTable :=
  match tools.insert? row with
  | some inserted => inserted
  | none =>
      tools.update (overwrite row) (fun old => by unfold overwrite; split <;> rfl)
        (fun old => by unfold overwrite; split <;> rfl)

/-- `SELECT id FROM tools WHERE tool_id = ?` for a row that is there. -/
def rowIdOf (tools : ToolTable) (toolId : String) : Nat :=
  ((rowById tools.rows toolId).map ToolRow.id).getD 0

/-! ## Registering a tool -/

/-- The version under which an entry is stored. -/
def resolvedVersion (entry : ToolEntry V) : String :=
  resolveInitialVersion (orElse entry.version entry.definition.version)
    (normalizeOrigin (some entry.origin))

/-- An upsert takes the head unless the head has a higher version. -/
def takesHead (head : Option ToolRow) (version : String) : Bool :=
  match head with
  | none => true
  | some head => !(head.version ≠ "" ∧ 0 < compareVersions head.version version)

/-- The row an upsert inserts. -/
def upsertRow (env : Env V) (entry : ToolEntry V) (rows : List ToolRow) : ToolRow :=
  let version := resolvedVersion entry
  let summary := orElse entry.summary (slice entry.definition.description 80)
  let head := flaggedHead rows entry.toolName
  { id := 0
    toolId := mainToolId entry.toolName version
    toolName := entry.toolName
    version := version
    -- Without a head, the newest row of the tool on any branch.
    parentVersionId :=
      match head with
      | some head => some head.toolId
      | none => (newestOfTool rows entry.toolName).map ToolRow.toolId
    providerId := entry.providerId
    summary := summary
    definition := entry.definition
    language := entry.definition.language
    runtime := entry.definition.runtime
    essential := entry.essential
    riskLevel := orElse entry.definition.riskLevel "low"
    requiredPermissions := entry.definition.requiredPermissions
    lineageId := orElse entry.lineageId entry.toolName
    summaryL2 := orElse entry.summaryL2 (generateL2 env.chat entry.toolName summary)
    branch := "main"
    isHead := takesHead head version
    diffPatch := none
    origin := normalizeOrigin (some entry.origin)
    stage := stageOf version
    createdAt := env.now }

/-- The table after an upsert of the row. -/
def upsertInto (tools : ToolTable) (row : ToolRow) : ToolTable :=
  let tools := insertOrUpdate tools row
  if row.isHead then clearOtherHeads row.toolName row.branch row.toolId tools else tools

def upsertTool (env : Env V) (entry : ToolEntry V) (s : StoreState V) : Outcome V String :=
  let row := upsertRow env entry s.tools.rows
  let written := { s with tools := upsertInto s.tools row }
  match entry.embedding with
  | none => (.ok row.toolId, written)
  | some embedding =>
      match writeVec .l1 (rowIdOf written.tools row.toolId) row.toolId row.toolName embedding
          written with
      | some written => (.ok row.toolId, written)
      | none => (.error .vectorError, s)

/-! ## Reading -/

/-- The row `get_tool` reads; the empty version stands for none given. -/
def getTool (rows : List ToolRow) (toolName version : String) : Option ToolRow :=
  if version ≠ "" then rowById rows (mainToolId toolName version)
  else newestOn rows toolName "main"

/-- `_row_to_entry`. -/
def rowToEntry (s : StoreState V) (row : ToolRow) : ToolEntry V :=
  let summary := orElse row.summary (slice row.definition.description 80)
  { toolName := row.toolName
    definition := row.definition
    providerId := row.providerId
    essential := row.essential
    embedding :=
      if s.vecExtension.isSome then s.vecToolsIdx.lookup row.id
      else (s.vecTools.find? fun entry => entry.toolId = row.toolId).map VecRow.embedding
    summary := summary
    version := row.version
    language := row.language
    riskLevel := orElse row.riskLevel "low"
    requiredPermissions := row.requiredPermissions
    lineageId := orElse row.lineageId row.toolName
    summaryL2 := orElse row.summaryL2 (slice summary 30)
    origin := match row.origin with | .external => "external" | .generated => "generated"
    stage := row.stage }

/-- The rows `list_tools` lists, by tool name. -/
def listTools (rows : List ToolRow) (stage : Option VersionStage) (origin : Option String) :
    List ToolRow :=
  (rows.filter fun row =>
    row.branch = "main" ∧ row.isHead ∧ (∀ wanted ∈ stage, row.stage = wanted) ∧
      ∀ wanted ∈ origin, row.origin = normalizeOrigin (some wanted)).insertionSort
    fun first second => first.toolName ≤ second.toolName

/-! ## New versions -/

/-- The version after `current`; the empty kind stands for none given. -/
def nextVersion (current bump changeKind : String) : String :=
  if changeKind ≠ "" then bumpFor current changeKind else bumpVersion current bump

/-- The row `create_version` inserts above the branch's newest row. -/
def versionRow (env : Env V) (toolName : String) (newDefinition : ToolDefinition)
    (bump branch changeKind : String) (old : ToolRow) : ToolRow :=
  let version := nextVersion old.version bump changeKind
  let summary := slice newDefinition.description 80
  { id := 0
    toolId := toolIdOn toolName branch version
    toolName := toolName
    version := version
    parentVersionId := some old.toolId
    providerId := old.providerId
    summary := summary
    definition := newDefinition
    language := newDefinition.language
    runtime := newDefinition.runtime
    essential := old.essential
    riskLevel := orElse newDefinition.riskLevel "low"
    requiredPermissions := newDefinition.requiredPermissions
    lineageId := old.lineageId
    summaryL2 := generateL2 env.chat toolName summary
    branch := branch
    isHead := true
    diffPatch := some (dictDiff old.definition.dump newDefinition.dump "")
    origin := old.origin
    stage := stageOf version
    createdAt := env.now }

/-- The insertion of a row that becomes the head of its branch; nothing if its id is taken. -/
def commitHead (tools : ToolTable) (row : ToolRow) : Option ToolTable :=
  (tools.insert? row).map (clearOtherHeads row.toolName row.branch row.toolId)

def createVersion (env : Env V) (toolName : String) (newDefinition : ToolDefinition)
    (changelog bump branch changeKind : String) (s : StoreState V) : Outcome V String :=
  match newestOn s.tools.rows toolName branch with
  | none => (.error (.toolNotFound toolName), s)
  | some old =>
      let row := versionRow env toolName newDefinition bump branch changeKind old
      match commitHead s.tools row with
      | none => (.error .integrityError, s)
      | some tools =>
          let s := embedToolRow env (rowIdOf tools row.toolId) row.toolId toolName row.summary
            row.summaryL2 { s with tools := tools }
          let s :=
            if changelog = "" then s
            else
              { s with
                toolChangelogs :=
                  s.toolChangelogs ++ [⟨row.toolId, "version_update", changelog⟩] }
          (.ok row.toolId, s)

def rollback (env : Env V) (toolName toVersion : String) (s : StoreState V) : Outcome V String :=
  match getTool s.tools.rows toolName toVersion with
  | none => (.error (.rollbackTargetNotFound toolName toVersion), s)
  | some target =>
      createVersion env toolName target.definition ("rollback to " ++ toVersion) "patch" "main" "" s

/-! ## Branches -/

/-- The row a branch is forked from; the empty version stands for none given. -/
def forkPoint (rows : List ToolRow) (toolName fromVersion : String) : Option ToolRow :=
  if fromVersion ≠ "" then
    rows.find? fun row => row.On toolName "main" ∧ row.version = fromVersion
  else newestOn rows toolName "main"

/-- The snapshot with which a branch starts. -/
def branchRow (env : Env V) (toolName branchName : String) (base : ToolRow) : ToolRow :=
  { base with
    id := 0
    toolId := branchToolId toolName branchName base.version
    parentVersionId := some base.toolId
    branch := branchName
    isHead := true
    diffPatch := some ⟨[], [], []⟩
    createdAt := env.now }

def createBranch (env : Env V) (toolName branchName fromVersion : String) (s : StoreState V) :
    Outcome V String :=
  if branchName = "main" then (.error .reservedBranch, s)
  else if '/' ∈ branchName.toList ∨ '@' ∈ branchName.toList then
    (.error (.invalidBranchName branchName), s)
  else
    match forkPoint s.tools.rows toolName fromVersion with
    | none => (.error (.forkPointNotFound toolName fromVersion), s)
    | some base =>
        let row := branchRow env toolName branchName base
        -- The branch exists if it has a row with the version of the fork point.
        if (rowById s.tools.rows row.toolId).isSome then
          (.error (.branchExists branchName toolName), s)
        else
          match commitHead s.tools row with
          | none => (.error .integrityError, s)
          | some tools =>
              (.ok row.toolId,
                embedToolRow env (rowIdOf tools row.toolId) row.toolId toolName base.summary
                  base.summaryL2 { s with tools := tools })

/-- The two heads and the base of a merge: base, target head, source head. -/
def mergeInputs (rows : List ToolRow) (toolName source target : String) :
    Except StoreError (ToolRow × ToolRow × ToolRow) :=
  match newestOn rows toolName source with
  | none => .error (.branchNotFound source toolName)
  | some theirs =>
      match newestOn rows toolName target with
      | none => .error (.branchNotFound target toolName)
      | some ours =>
          -- The base is the parent of the first row of the source branch.
          match (oldestOn rows toolName source).bind ToolRow.parentVersionId with
          | none => .error (.noMergeBase source)
          | some baseId =>
              if baseId = "" then .error (.noMergeBase source)
              else
                match rowById rows baseId with
                | none => .error (.mergeBaseNotFound baseId)
                | some base => .ok (base, ours, theirs)

/-- The definition a merge commits. -/
def mergedDefinition (toolName : String) (base ours theirs : ToolRow) :
    Except StoreError ToolDefinition :=
  let (merged, conflicts) :=
    mergeDicts base.definition.dump ours.definition.dump theirs.definition.dump
  if conflicts ≠ [] then .error (.versionConflict toolName conflicts)
  else
    match ToolDefinition.modelValidate merged with
    | none => .error .validationError
    | some definition => .ok definition

def mergeBranch (env : Env V) (toolName source target : String) (s : StoreState V) :
    Outcome V String :=
  match mergeInputs s.tools.rows toolName source target with
  | .error e => (.error e, s)
  | .ok (base, ours, theirs) =>
      match mergedDefinition toolName base ours theirs with
      | .error e => (.error e, s)
      | .ok definition =>
          createVersion env toolName definition
            ("merge branch '" ++ source ++ "' into '" ++ target ++ "'") "minor" target "" s

/-! ## Promotion -/

/-- The row of a promotion: the content of the lineage head above the flagged head. -/
def promotedRow (env : Env V) (toolName : String) (head : ToolEntry V) (parent : ToolRow) :
    ToolRow :=
  let definition := { head.definition with version := stableInitialVersion }
  let summary := orElse head.summary (slice definition.description 80)
  { id := 0
    toolId := mainToolId toolName stableInitialVersion
    toolName := toolName
    version := stableInitialVersion
    parentVersionId := some parent.toolId
    providerId := head.providerId
    summary := summary
    definition := definition
    language := head.language
    runtime := head.definition.runtime
    essential := head.essential
    riskLevel := head.riskLevel
    requiredPermissions := head.requiredPermissions
    lineageId := orElse head.lineageId toolName
    summaryL2 := orElse head.summaryL2 (slice summary 30)
    branch := "main"
    isHead := true
    diffPatch := some (dictDiff head.definition.dump definition.dump "")
    origin := parent.origin
    stage := .stable
    createdAt := env.now }

def promoteToStable (env : Env V) (toolName evidence : String) (s : StoreState V) :
    Outcome V (Option String) :=
  match lineageHead s.tools.rows toolName with
  | none => (.ok none, s)
  | some head =>
      if isStable head.version then (.ok none, s)
      else
        match flaggedHead s.tools.rows toolName with
        | none => (.ok none, s)
        | some parent =>
            let row := promotedRow env toolName (rowToEntry s head) parent
            if (rowById s.tools.rows row.toolId).isSome then (.ok (some row.toolId), s)
            else
              match commitHead s.tools row with
              | none => (.error .integrityError, s)
              | some tools =>
                  let description :=
                    "promote to " ++ stableInitialVersion ++
                      if evidence = "" then "" else ": " ++ evidence
                  let s :=
                    { s with
                      tools := tools
                      toolChangelogs :=
                        s.toolChangelogs ++ [⟨row.toolId, "promote", description⟩] }
                  (.ok (some row.toolId),
                    embedToolRow env (rowIdOf tools row.toolId) row.toolId toolName row.summary
                      row.summaryL2 s)

/-- `UPDATE tools SET origin = 'external'` for all rows of the tool. -/
def setExternal (toolName : String) (tools : ToolTable) : ToolTable :=
  tools.update
    (fun row => if row.toolName = toolName then { row with origin := .external } else row)
    (fun row => by split <;> rfl) (fun row => by split <;> rfl)

def markExternal (env : Env V) (toolName : String) (s : StoreState V) :
    Outcome V (Option String) :=
  match lineageHead s.tools.rows toolName with
  | none => (.ok none, s)
  | some head =>
      let marked := { s with tools := setExternal toolName s.tools }
      if isStable head.version then (.ok (some (mainToolId toolName head.version)), marked)
      else promoteToStable env toolName "外部接入: 首版即正式版 1.0.0" marked

/-! ## Deleting and tagging -/

/-- The rows a deletion is about; the empty version stands for all versions. -/
def selects (toolName version : String) (row : ToolRow) : Bool :=
  row.toolName = toolName ∧ (version = "" ∨ row.version = version)

def deleteTool (toolName version : String) (s : StoreState V) : Outcome V Bool :=
  let deleted := s.tools.rows.filter (selects toolName version)
  if version ≠ "" ∧ deleted = [] then (.ok false, s)
  else
    let gone (toolId : String) := deleted.any fun row => row.toolId = toolId
    let s := deleteVecs deleted s
    (.ok true,
      { s with
        toolChangelogs := s.toolChangelogs.filter fun entry => !gone entry.toolId
        toolTags := s.toolTags.filter fun entry => !gone entry.1
        toolAliases := s.toolAliases.filter fun entry => !gone entry.2
        toolDependencies := s.toolDependencies.filter fun entry => !gone entry.1 && !gone entry.2
        tools := s.tools.delete (selects toolName version) })

/-- `add_tag`: the tag goes to the newest row of the tool. -/
def addTag (toolName tag : String) (s : StoreState V) : StoreState V :=
  match newestOfTool s.tools.rows toolName with
  | none => s
  | some row =>
      if (row.toolId, tag) ∈ s.toolTags then s
      else { s with toolTags := s.toolTags ++ [(row.toolId, tag)] }

/-! ## Runs -/

inductive Call (V : Type) where
  | upsertTool (entry : ToolEntry V)
  | createVersion (toolName : String) (newDefinition : ToolDefinition)
      (changelog bump branch changeKind : String)
  | createBranch (toolName branchName fromVersion : String)
  | mergeBranch (toolName source target : String)
  | rollback (toolName toVersion : String)
  | promoteToStable (toolName evidence : String)
  | markExternal (toolName : String)
  | deleteTool (toolName version : String)
  | addTag (toolName tag : String)

/-- The state after a call, whether it returns or raises. -/
def step (s : StoreState V) (action : Env V × Call V) : StoreState V :=
  let env := action.1
  match action.2 with
  | .upsertTool entry => (upsertTool env entry s).2
  | .createVersion toolName newDefinition changelog bump branch changeKind =>
      (createVersion env toolName newDefinition changelog bump branch changeKind s).2
  | .createBranch toolName branchName fromVersion =>
      (createBranch env toolName branchName fromVersion s).2
  | .mergeBranch toolName source target => (mergeBranch env toolName source target s).2
  | .rollback toolName toVersion => (rollback env toolName toVersion s).2
  | .promoteToStable toolName evidence => (promoteToStable env toolName evidence s).2
  | .markExternal toolName => (markExternal env toolName s).2
  | .deleteTool toolName version => (deleteTool toolName version s).2
  | .addTag toolName tag => addTag toolName tag s

/-- Some run of calls from an empty store ends in the state. -/
def ReachableState (s : StoreState V) : Prop :=
  ∃ vecExtension, Reachable step (StoreState.empty vecExtension) s

theorem reachableState_run (vecExtension : Option (VecExtension V))
    (actions : List (Env V × Call V)) :
    ReachableState (run step (StoreState.empty vecExtension) actions) :=
  ⟨vecExtension, .of_run _ actions⟩

/-! ## A tool for examples -/

def plainDefinition (description : String) : ToolDefinition :=
  ⟨"tool", description, [], "1.0.0", "python", "python", "low", [], none⟩

/-- A generated tool without a vector, to be stored under the version. -/
def plainEntry (version : String) : ToolEntry Unit :=
  ⟨"tool", plainDefinition "first", "provider", false, none, "summary", version, "python", "low",
    [], "", "l2", "generated", .candidate⟩

/-- No client for chat or embeddings. -/
def atTime (now : Nat) : Env Unit := ⟨now, none, none⟩

/-- A lower version is registered after a higher one. -/
def registeredLow : List (Env Unit × Call Unit) :=
  [(atTime 1, .upsertTool (plainEntry "1.0.0")), (atTime 2, .upsertTool (plainEntry "0.5.0"))]

end YouMi.Mcp.ToolStore
