import YouMi.Library.Tasks
import YouMi.Mcp.ToolStore.Operations

/-!
# The calls of the tool store as tasks

A call of `ToolStore` awaits the chat client, the embedding client and its own
functions on the connection, so calls of several agents interleave.  Here a call is
a task with one segment for each function it runs on the connection.  A segment
ends with a commit, with a rollback, or with neither; the last leaves what its
statements did to be committed, or rolled back, by whichever segment is next.
-/

namespace YouMi.Mcp.ToolStore

open YouMi.Core YouMi.Library YouMi.Library.Tasks YouMi.Python

variable {V : Type}

/-- What statements read, and the state to which a rollback returns. -/
structure Connection (V : Type) where
  now : StoreState V
  committed : StoreState V

inductive Ending (V : Type) where
  | commit (s : StoreState V)
  | rollback
  /-- A read, or an exception that nothing rolls back. -/
  | leave (s : StoreState V)

def Connection.end (connection : Connection V) : Ending V → Connection V
  | .commit s => ⟨s, s⟩
  | .rollback => ⟨connection.committed, connection.committed⟩
  | .leave s => ⟨s, connection.committed⟩

/-! ## Calls and tasks -/

/-- The calls that write, beside those of `Call`. -/
inductive StoreCall (V : Type) where
  | base (call : Call V)
  | addChangelog (toolName changeType description : String)
  | updateEmbedding (toolName : String)
  | rebuildSummaries
  | addAlias (aliasName toolName version : String)
  | addDependency (toolName dependsOn : String)

/-- A row whose vectors are to be written, with the summaries they are made of. -/
structure EmbedJob where
  rowId : Nat
  toolId : String
  toolName : String
  summaryL1 : String
  summaryL2 : String
  deriving DecidableEq

def EmbedJob.text (job : EmbedJob) : VecLevel → String
  | .l1 => job.toolName ++ ": " ++ job.summaryL1
  | .l2 => job.toolName ++ ": " ++ job.summaryL2

/-- What `rebuild_summaries` has read of a row. -/
structure FetchedRow where
  rowId : Nat
  toolId : String
  toolName : String
  description : String

/-- What is left of a call. -/
inductive Task (V : Type) where
  | call (call : StoreCall V)
  /-- `promote_to_stable` after it has read the head. -/
  | promote (toolName evidence : String) (head : ToolEntry V)
  /-- `mark_external` after it has read the version of the head. -/
  | mark (toolName headVersion : String)
  /-- The vector of a level, and the changelog `create_version` writes in the end. -/
  | embed (level : VecLevel) (job : EmbedJob) (changelog : String)
  | log (toolId changelog : String)
  | applySummaries (fetched : List FetchedRow)
  /-- The vectors of the first row from the level on, then those of the others. -/
  | embedSummaries (level : VecLevel) (jobs : List EmbedJob)

/-! ## Vectors and changelogs -/

def dropVec (level : VecLevel) (rowId : Nat) (s : StoreState V) : StoreState V :=
  match level with
  | .l1 => { s with vecToolsIdx := s.vecToolsIdx.filter fun entry => entry.1 ≠ rowId }
  | .l2 => { s with vecToolsL2Idx := s.vecToolsL2Idx.filter fun entry => entry.1 ≠ rowId }

/-- The row that `tool_id` refers to is there: what a foreign key asks for. -/
def refers (s : StoreState V) (toolId : String) : Bool := (rowById s.tools.rows toolId).isSome

/--
`_write_vec_async`.  Where the index refuses a vector, the deletion of the one before
it has been executed; the JSON table refuses vectors of no row.
-/
def writeVecAsync (level : VecLevel) (job : EmbedJob) (embedding : V) (s : StoreState V) :
    Ending V × Bool :=
  if s.vecExtension.isNone ∧ refers s job.toolId = false then (.leave s, false)
  else
    match writeVec level job.rowId job.toolId job.toolName embedding s with
    | some written => (.commit written, true)
    | none => (.leave (dropVec level job.rowId s), false)

/-- One vector of a row; whether it is written.  Exceptions are caught. -/
def embedLevel (env : Env V) (level : VecLevel) (job : EmbedJob) (s : StoreState V) :
    Ending V × Bool :=
  match env.embedOne.bind fun embed => embed (job.text level) with
  | none => (.leave s, false)
  | some embedding => writeVecAsync level job embedding s

/-- The second vector follows the first if there is a second summary. -/
def EmbedJob.goesOn (job : EmbedJob) (level : VecLevel) (written : Bool) : Bool :=
  written ∧ level = .l1 ∧ job.summaryL2 ≠ ""

def afterEmbed (toolId changelog : String) : Option (Task V) :=
  if changelog = "" then none else some (.log toolId changelog)

/-- The vectors of the rows that are left. -/
def embedRest (jobs : List EmbedJob) : Option (Task V) :=
  if jobs = [] then none else some (.embedSummaries .l1 jobs)

/-- `_log` of `create_version`; the foreign key refuses a changelog of no row. -/
def insertChangelog (entry : Changelog) (s : StoreState V) : Ending V :=
  if refers s entry.toolId then
    .commit { s with toolChangelogs := s.toolChangelogs ++ [entry] }
  else .leave s

/-! ## The first segments of calls -/

/-- A row is committed as a head, and its vectors follow; or its identifier is taken. -/
def commitRow (row : ToolRow) (toolChangelogs : List Changelog)
    (summaryL1 summaryL2 changelog : String) (s : StoreState V) : Ending V × Option (Task V) :=
  match commitHead s.tools row with
  | none => (.rollback, none)
  | some tools =>
      (.commit { s with tools, toolChangelogs },
        some (.embed .l1
          ⟨rowIdOf tools row.toolId, row.toolId, row.toolName, summaryL1, summaryL2⟩ changelog))

/-- `_create` -/
def createVersionSegment (env : Env V) (toolName : String) (newDefinition : ToolDefinition)
    (changelog bump branch changeKind : String) (s : StoreState V) : Ending V × Option (Task V) :=
  match newestOn s.tools.rows toolName branch with
  | none => (.leave s, none)
  | some old =>
      let row := versionRow env toolName newDefinition bump branch changeKind old
      commitRow row s.toolChangelogs row.summary row.summaryL2 changelog s

/-- `_fork` -/
def createBranchSegment (env : Env V) (toolName branchName fromVersion : String)
    (s : StoreState V) : Ending V × Option (Task V) :=
  if branchName = "main" then (.leave s, none)
  else if '/' ∈ branchName.toList ∨ '@' ∈ branchName.toList then (.leave s, none)
  else
    match forkPoint s.tools.rows toolName fromVersion with
    | none => (.leave s, none)
    | some base =>
        let row := branchRow env toolName branchName base
        if (rowById s.tools.rows row.toolId).isSome then (.leave s, none)
        else commitRow row s.toolChangelogs base.summary base.summaryL2 "" s

/-- `_promote` -/
def promoteSegment (env : Env V) (toolName evidence : String) (head : ToolEntry V)
    (s : StoreState V) : Ending V × Option (Task V) :=
  match flaggedHead s.tools.rows toolName with
  | none => (.leave s, none)
  | some parent =>
      let row := promotedRow env toolName head parent
      if (rowById s.tools.rows row.toolId).isSome then (.leave s, none)
      else
        let description :=
          "promote to " ++ stableInitialVersion ++ if evidence = "" then "" else ": " ++ evidence
        commitRow row (s.toolChangelogs ++ [⟨row.toolId, "promote", description⟩]) row.summary
          row.summaryL2 "" s

/-- The first segment of a call of `Call`; a call that goes on with another call is that call. -/
def baseSegment (env : Env V) (s : StoreState V) : Call V → Ending V × Option (Task V)
  | .upsertTool entry =>
      match upsertTool env entry s with
      | (.ok _, written) => (.commit written, none)
      | (.error _, _) => (.rollback, none)
  | .createVersion toolName newDefinition changelog bump branch changeKind =>
      createVersionSegment env toolName newDefinition changelog bump branch changeKind s
  | .createBranch toolName branchName fromVersion =>
      createBranchSegment env toolName branchName fromVersion s
  | .mergeBranch toolName source target =>
      match mergeInputs s.tools.rows toolName source target with
      | .error _ => (.leave s, none)
      | .ok (base, ours, theirs) =>
          match mergedDefinition toolName base ours theirs with
          | .error _ => (.leave s, none)
          | .ok definition =>
              (.leave s, some (.call (.base (.createVersion toolName definition
                ("merge branch '" ++ source ++ "' into '" ++ target ++ "'") "minor" target ""))))
  | .rollback toolName toVersion =>
      match getTool s.tools.rows toolName toVersion with
      | none => (.leave s, none)
      | some row =>
          (.leave s, some (.call (.base (.createVersion toolName row.definition
            ("rollback to " ++ toVersion) "patch" "main" ""))))
  | .promoteToStable toolName evidence =>
      match lineageHead s.tools.rows toolName with
      | none => (.leave s, none)
      | some head =>
          if isStable head.version then (.leave s, none)
          else (.leave s, some (.promote toolName evidence (rowToEntry s head)))
  | .markExternal toolName =>
      match lineageHead s.tools.rows toolName with
      | none => (.leave s, none)
      | some head => (.leave s, some (.mark toolName head.version))
  | .deleteTool toolName version =>
      match deleteTool toolName version s with
      | (.ok true, left) => (.commit left, none)
      | _ => (.leave s, none)
  | .addTag toolName tag =>
      match newestOfTool s.tools.rows toolName with
      | none => (.leave s, none)
      | some _ => (.commit (addTag toolName tag s), none)

/-- `ON CONFLICT(alias_name) DO UPDATE`. -/
def setAlias (aliasName toolId : String) (aliases : List (String × String)) :
    List (String × String) :=
  if aliases.any fun entry => entry.1 = aliasName then
    aliases.map fun entry => if entry.1 = aliasName then (aliasName, toolId) else entry
  else aliases ++ [(aliasName, toolId)]

def addAlias (aliasName toolName version : String) (s : StoreState V) : Ending V :=
  let toolId := mainToolId toolName version
  if refers s toolId then .commit { s with toolAliases := setAlias aliasName toolId s.toolAliases }
  else .leave s

/-- The row that the queries of `resolve_alias` end with. -/
def aliasRow (s : StoreState V) (aliasName : String) : Option ToolRow :=
  (s.toolAliases.lookup aliasName).bind (rowById s.tools.rows)

def resolveAlias (s : StoreState V) (aliasName : String) : Option (ToolEntry V) :=
  (aliasRow s aliasName).map (rowToEntry s)

def addDependency (toolName dependsOn : String) (s : StoreState V) : Ending V :=
  match newestOfTool s.tools.rows toolName, newestOfTool s.tools.rows dependsOn with
  | some src, some dst =>
      .commit (
        if s.toolDependencies.elem (src.toolId, dst.toolId) then s
        else { s with toolDependencies := s.toolDependencies ++ [(src.toolId, dst.toolId)] })
  | _, _ => .leave s

def callSegment (env : Env V) (s : StoreState V) : StoreCall V → Ending V × Option (Task V)
  | .base call => baseSegment env s call
  | .addChangelog toolName changeType description =>
      match newestOfTool s.tools.rows toolName with
      | none => (.leave s, none)
      | some row => (insertChangelog ⟨row.toolId, changeType, description⟩ s, none)
  | .updateEmbedding toolName =>
      if env.embedOne.isNone then (.leave s, none)
      else
        match newestOfTool s.tools.rows toolName with
        | none => (.leave s, none)
        | some row =>
            (.leave s,
              some (.embed .l1 ⟨row.id, row.toolId, toolName, row.summary, row.summaryL2⟩ ""))
  | .rebuildSummaries =>
      if s.tools.rows = [] then (.leave s, none)
      else
        (.leave s, some (.applySummaries (s.tools.rows.map fun row =>
          ⟨row.id, row.toolId, row.toolName, row.definition.description⟩)))
  | .addAlias aliasName toolName version => (addAlias aliasName toolName version s, none)
  | .addDependency toolName dependsOn => (addDependency toolName dependsOn s, none)

/-! ## Segments -/

/-- The summaries `rebuild_summaries` generates for a row, for its columns and its vectors. -/
def FetchedRow.job (env : Env V) (row : FetchedRow) : EmbedJob :=
  let newL1 := generateL1 env.chat row.toolName row.description
  ⟨row.rowId, row.toolId, row.toolName, newL1, generateL2 env.chat row.toolName newL1⟩

/-- `UPDATE tools SET summary = ?, summary_l2 = ? WHERE id = ?` for each of the rows. -/
def setSummaries (jobs : List EmbedJob) (row : ToolRow) : ToolRow :=
  match jobs.find? fun job => job.rowId = row.id with
  | none => row
  | some job => { row with summary := job.summaryL1, summaryL2 := job.summaryL2 }

def updateSummaries (jobs : List EmbedJob) (tools : ToolTable) : ToolTable :=
  tools.update (setSummaries jobs)
    (fun row => by unfold setSummaries; split <;> rfl)
    (fun row => by unfold setSummaries; split <;> rfl)

def taskSegment (env : Env V) (s : StoreState V) : Task V → Ending V × Option (Task V)
  | .call call => callSegment env s call
  | .promote toolName evidence head => promoteSegment env toolName evidence head s
  | .mark toolName headVersion =>
      (.commit { s with tools := setExternal toolName s.tools },
        if isStable headVersion then none
        else
          some (.call (.base (.promoteToStable toolName "外部接入: 首版即正式版 1.0.0"))))
  | .embed level job changelog =>
      let (ending, written) := embedLevel env level job s
      (ending,
        if job.goesOn level written then some (.embed .l2 job changelog)
        else afterEmbed job.toolId changelog)
  | .log toolId changelog => (insertChangelog ⟨toolId, "version_update", changelog⟩ s, none)
  | .applySummaries fetched =>
      let jobs := fetched.map (FetchedRow.job env)
      (.commit { s with tools := updateSummaries jobs s.tools },
        if env.embedOne.isSome then embedRest jobs else none)
  | .embedSummaries _ [] => (.leave s, none)
  | .embedSummaries level (job :: rest) =>
      let (ending, written) := embedLevel env level job s
      (ending,
        if job.goesOn level written then some (.embedSummaries .l2 (job :: rest))
        else embedRest rest)

/-- A segment of a task. -/
def segment (connection : Connection V) (task : Task V) (env : Env V) :
    Connection V × Option (Task V) :=
  let (ending, rest) := taskSegment env connection.now task
  (connection.end ending, rest)

/-- The agents' calls on one connection, in turns. -/
abbrev callTurn : Pool (Connection V) (Task V) → Turn (StoreCall V) (Env V) →
    Pool (Connection V) (Task V) :=
  turn Task.call segment

def emptyPool (vecExtension : Option (VecExtension V)) : Pool (Connection V) (Task V) :=
  ⟨⟨.empty vecExtension, .empty vecExtension⟩, []⟩

end YouMi.Mcp.ToolStore
