import Mathlib.Logic.Relation
import YouMi.Mcp.ToolStore.Search
import YouMi.Mcp.ToolStore.Transactions

/-!
# What segments leave true

`Change` lists what a segment can commit, and `segment_changes` says it of every
segment once.  From that come the invariants of the store that hold in all
interleavings of its calls: references to rows never dangle, keys stay unique, and
a vector stays with the tool for which it was made.
-/

namespace YouMi.Mcp.ToolStore

open YouMi.Core YouMi.Library YouMi.Library.Tasks

variable {V : Type}

/-! ## The tools table -/

/-- Row ids are not given again, and a row keeps its identifier and its tool. -/
structure Follows (before after : ToolTable) : Prop where
  seq : before.seq ≤ after.seq
  old : ∀ row ∈ after.rows, row.id ≤ before.seq →
    ∃ earlier ∈ before.rows, earlier.id = row.id ∧ earlier.toolId = row.toolId ∧
      earlier.toolName = row.toolName

/-- A statement that deletes no row. -/
structure Written (before after : ToolTable) : Prop extends Follows before after where
  stays : ∀ row ∈ before.rows, ∃ later ∈ after.rows, later.toolId = row.toolId
  wellFormed : WellFormed before.rows → WellFormed after.rows

theorem Follows.refl (tools : ToolTable) : Follows tools tools :=
  ⟨le_rfl, fun row member _ => ⟨row, member, rfl, rfl, rfl⟩⟩

theorem Follows.trans {first second third : ToolTable} (earlier : Follows first second)
    (later : Follows second third) : Follows first third where
  seq := earlier.seq.trans later.seq
  old row member bound := by
    obtain ⟨middle, here, id, toolId, toolName⟩ := later.old row member (bound.trans earlier.seq)
    obtain ⟨start, there, id', toolId', toolName'⟩ := earlier.old middle here (id ▸ bound)
    exact ⟨start, there, id'.trans id, toolId'.trans toolId, toolName'.trans toolName⟩

theorem Written.refl (tools : ToolTable) : Written tools tools :=
  ⟨.refl tools, fun row member => ⟨row, member, rfl⟩, id⟩

/-- An insertion that makes the row the head of its branch if it is flagged. -/
theorem written_insert {before after : ToolTable} {row : ToolRow} (seq : after.seq = before.seq + 1)
    (rows : after.rows =
      before.rows.map (makeRoom (stored before row)) ++ [stored before row])
    (form : WellFormed before.rows → WellFormedRow row) : Written before after where
  seq := seq ▸ Nat.le_succ _
  old other member bound := by
    rw [rows] at member
    have keeps := makeRoom_keepsPlace (stored before row)
    rcases List.mem_append.mp member with old | new
    · obtain ⟨earlier, here, rfl⟩ := List.mem_map.mp old
      exact ⟨earlier, here, (keeps.id _).symm, (keeps.toolId _).symm, (keeps.toolName _).symm⟩
    · rw [List.mem_singleton.mp new] at bound
      exact absurd bound (Nat.not_succ_le_self _)
  stays other member := by
    refine ⟨makeRoom (stored before row) other, ?_, (makeRoom_keepsPlace _).toolId other⟩
    rw [rows]
    exact List.mem_append_left _ (List.mem_map_of_mem member)
  wellFormed holds := by
    rw [rows]
    exact holds.insert ((form holds).stored before)

theorem written_map {before after : ToolTable} {change : ToolRow → ToolRow}
    (seq : after.seq = before.seq) (rows : after.rows = before.rows.map change)
    (keeps : KeepsPlace change) (demotes : OnlyDemotes change) : Written before after where
  seq := seq.ge
  old other member _ := by
    rw [rows] at member
    obtain ⟨earlier, here, rfl⟩ := List.mem_map.mp member
    exact ⟨earlier, here, (keeps.id _).symm, (keeps.toolId _).symm, (keeps.toolName _).symm⟩
  stays other member := by
    refine ⟨change other, ?_, keeps.toolId other⟩
    rw [rows]
    exact List.mem_map_of_mem member
  wellFormed holds := by
    rw [rows]
    exact holds.map keeps demotes

theorem commitHead_written {tools next : ToolTable} {row : ToolRow} (isHead : row.isHead = true)
    (form : WellFormed tools.rows → WellFormedRow row)
    (committed : commitHead tools row = some next) : Written tools next := by
  refine written_insert ?_ (commitHead_rows isHead committed).1 form
  obtain ⟨inserted, done, rfl⟩ := Option.map_eq_some_iff.mp committed
  exact (RowTable.insert?_seq done : inserted.seq = tools.seq + 1)

theorem upsertInto_seq (tools : ToolTable) (row : ToolRow) :
    (upsertInto tools row).seq = (insertOrUpdate tools row).seq := by
  unfold upsertInto
  dsimp only
  split <;> rfl

theorem upsertInto_written (tools : ToolTable) (row : ToolRow) (form : WellFormedRow row) :
    Written tools (upsertInto tools row) := by
  have seq := upsertInto_seq tools row
  unfold insertOrUpdate at seq
  rcases upsertInto_rows tools row with ⟨rows, fresh⟩ | ⟨rows, taken⟩
  · refine written_insert ?_ rows fun _ => form
    cases inserted : tools.insert? row with
    | none =>
        obtain ⟨old, member, same⟩ := RowTable.insert?_eq_none_iff.mp inserted
        exact absurd same (fresh.toolId old member)
    | some next =>
        rw [inserted] at seq
        exact seq.trans (RowTable.insert?_seq inserted)
  · refine written_map ?_ rows (reupsert_keepsPlace row) (reupsert_onlyDemotes row)
    rw [RowTable.insert?_eq_none_iff.mpr taken] at seq
    exact seq

theorem setExternal_written (toolName : String) (tools : ToolTable) :
    Written tools (setExternal toolName tools) :=
  written_map rfl (setExternal_rows toolName tools) (external_keepsPlace toolName)
    (external_relabels toolName).onlyDemotes

theorem setSummaries_relabels (jobs : List EmbedJob) : Relabels (setSummaries jobs) := by
  constructor
  · constructor <;> intro row <;> unfold setSummaries <;> split <;> rfl
  · intro row
    unfold setSummaries
    split <;> rfl
  · intro row
    unfold setSummaries
    split <;> rfl

theorem updateSummaries_written (jobs : List EmbedJob) (tools : ToolTable) :
    Written tools (updateSummaries jobs tools) :=
  written_map rfl (RowTable.update_rows ..) (setSummaries_relabels jobs).toKeepsPlace
    (setSummaries_relabels jobs).onlyDemotes

theorem delete_follows (tools : ToolTable) (selected : ToolRow → Bool) :
    Follows tools (tools.delete selected) where
  seq := le_rfl
  old row member _ := ⟨row, (List.mem_filter.mp member).1, rfl, rfl, rfl⟩

/-! ## What a segment can commit -/

def Known (s : StoreState V) (toolId : String) : Prop := ∃ row ∈ s.tools.rows, row.toolId = toolId

theorem refers_iff {s : StoreState V} {toolId : String} : refers s toolId = true ↔ Known s toolId := by
  rw [refers, rowById, List.find?_isSome]
  simp [Known]

/-- The row id and the identifier have been given to a row of the tool, which may be gone. -/
structure Placed (tools : ToolTable) (rowId : Nat) (toolId toolName : String) : Prop where
  given : rowId ≤ tools.seq
  named : ∀ row ∈ tools.rows, row.id = rowId → row.toolName = toolName
  form : ∃ row, WellFormedRow row ∧ row.toolId = toolId ∧ row.toolName = toolName

theorem Placed.follows {before after : ToolTable} {rowId : Nat} {toolId toolName : String}
    (placed : Placed before rowId toolId toolName) (follows : Follows before after) :
    Placed after rowId toolId toolName where
  given := placed.given.trans follows.seq
  named row member same := by
    obtain ⟨earlier, here, id, _, name⟩ := follows.old row member (same ▸ placed.given)
    exact name ▸ placed.named earlier here (id.trans same)
  form := placed.form

/-- An identifier tells the tool. -/
theorem WellFormedRow.toolName_eq {first second : ToolRow} (form : WellFormedRow first)
    (form' : WellFormedRow second) (same : first.toolId = second.toolId) :
    first.toolName = second.toolName := by
  rw [form.toolId, form'.toolId] at same
  exact (toolIdOn_inj form.branch form'.branch form.version form'.version same).1

theorem placed_of_mem {tools : ToolTable} (wellFormed : WellFormed tools.rows) {row : ToolRow}
    (member : row ∈ tools.rows) : Placed tools row.id row.toolId row.toolName where
  given := tools.rowid_le_seq row member
  named other here same := by rw [RowTable.eq_of_rowid here member same]
  form := ⟨row, wellFormed.each row member, rfl, rfl⟩

theorem placed_rowIdOf {tools : ToolTable} (wellFormed : WellFormed tools.rows) {row : ToolRow}
    (form : WellFormedRow row) (there : ∃ stored ∈ tools.rows, stored.toolId = row.toolId) :
    Placed tools (rowIdOf tools row.toolId) row.toolId row.toolName := by
  cases found : rowById tools.rows row.toolId with
  | none =>
      obtain ⟨stored, member, same⟩ := there
      exact absurd same (rowById_eq_none_iff.mp found stored member)
  | some stored =>
      obtain ⟨member, same⟩ := rowById_mem found
      have placed := placed_of_mem wellFormed member
      rw [(wellFormed.each stored member).toolName_eq form same, same] at placed
      rw [rowIdOf, found]
      exact placed

section Changes

variable (About : String → V → Prop)

/-- A change a segment of the task may make; `About` says which vectors are about which tool. -/
inductive Change (task : Task V) (s : StoreState V) : StoreState V → Prop
  | tools {tools} (written : Written s.tools tools) : Change task s { s with tools }
  | changelog {entry} (known : Known s entry.toolId) :
      Change task s { s with toolChangelogs := s.toolChangelogs ++ [entry] }
  | vector {level rowId toolId toolName embedding written}
      (placed : Placed s.tools rowId toolId toolName)
      (known : s.vecExtension = none → Known s toolId) (about : About toolName embedding)
      (done : writeVec level rowId toolId toolName embedding s = some written) :
      Change task s written
  | drop {level rowId} : Change task s (dropVec level rowId s)
  | tag {toolId tag} (known : Known s toolId) (new : (toolId, tag) ∉ s.toolTags) :
      Change task s { s with toolTags := s.toolTags ++ [(toolId, tag)] }
  | aliased {aliasName toolName version}
      (adds : task = .call (.addAlias aliasName toolName version))
      (known : Known s (mainToolId toolName version)) :
      Change task s
        { s with toolAliases := setAlias aliasName (mainToolId toolName version) s.toolAliases }
  | dependency {src dst} (known : Known s src) (known' : Known s dst)
      (new : (src, dst) ∉ s.toolDependencies) :
      Change task s { s with toolDependencies := s.toolDependencies ++ [(src, dst)] }
  | delete {toolName version} (deletes : task = .call (.base (.deleteTool toolName version))) :
      Change task s (deleteTool toolName version s).2

abbrev Changes (task : Task V) : StoreState V → StoreState V → Prop :=
  Relation.ReflTransGen (Change About task)

/-- What a segment leaves: what it commits is made of changes, what it leaves open drops a vector. -/
inductive Ends (task : Task V) (s : StoreState V) : Ending V → Prop
  | commit {next} (changes : Changes About task s next) : Ends task s (.commit next)
  | rollback : Ends task s .rollback
  | same : Ends task s (.leave s)
  | drop {level rowId} : Ends task s (.leave (dropVec level rowId s))

/-- The client makes vectors about the tool whose name begins the text. -/
def EmbedsAbout (env : Env V) : Prop :=
  ∀ embed ∈ env.embedOne, ∀ toolName text embedding,
    embed (toolName ++ ": " ++ text) = some embedding → About toolName embedding

/-- What a task relies on about the tools table, and what an entry's vector is about. -/
def Task.Knows (tools : ToolTable) : Task V → Prop
  | .call (.base (.upsertTool entry)) => ∀ v ∈ entry.embedding, About entry.toolName v
  | .embed _ job _ => Placed tools job.rowId job.toolId job.toolName
  | .applySummaries fetched => ∀ row ∈ fetched, Placed tools row.rowId row.toolId row.toolName
  | .embedSummaries _ jobs => ∀ job ∈ jobs, Placed tools job.rowId job.toolId job.toolName
  | _ => True

/-- The state after an ending that is no rollback. -/
def Ending.over (s : StoreState V) : Ending V → StoreState V
  | .commit next => next
  | .rollback => s
  | .leave next => next

/-- A segment makes only changes of the task, and what is left of it knows what it relies on. -/
structure SoundSegment (task : Task V) (s : StoreState V)
    (result : Ending V × Option (Task V)) : Prop where
  ends : Ends About task s result.1
  left : ∀ rest ∈ result.2, rest.Knows About (result.1.over s).tools

end Changes

section Segments

variable {About : String → V → Prop} {task : Task V} {s : StoreState V}

/-- A segment that ends the call and has only read. -/
theorem soundSegment_read : SoundSegment About task s (.leave s, none) :=
  ⟨.same, fun _ none => by cases none⟩

theorem soundSegment_rollback : SoundSegment About task s (.rollback, none) :=
  ⟨.rollback, fun _ none => by cases none⟩

theorem soundSegment_commit {next : StoreState V} (changes : Changes About task s next) :
    SoundSegment About task s (.commit next, none) :=
  ⟨.commit changes, fun _ none => by cases none⟩

/-- A segment that has only read, and goes on. -/
theorem soundSegment_goOn {rest : Task V} (knows : rest.Knows About s.tools) :
    SoundSegment About task s (.leave s, some rest) :=
  ⟨.same, fun _ left => by cases left; exact knows⟩

theorem ends_insertChangelog (entry : Changelog) : Ends About task s (insertChangelog entry s) := by
  unfold insertChangelog
  split
  · rename_i there
    exact .commit (.single (.changelog (refers_iff.mp there)))
  · exact .same

theorem ends_embedLevel {env : Env V} (embeds : EmbedsAbout About env) {job : EmbedJob}
    (placed : Placed s.tools job.rowId job.toolId job.toolName) (level : VecLevel) :
    Ends About task s (embedLevel env level job s).1 := by
  unfold embedLevel
  split
  · exact .same
  · rename_i embedding made
    obtain ⟨embed, isClient, text⟩ := Option.bind_eq_some_iff.mp made
    have about : About job.toolName embedding := by
      cases level <;> exact embeds embed isClient _ _ _ text
    unfold writeVecAsync
    split
    · exact .same
    · rename_i allowed
      split
      · rename_i written done
        refine .commit (.single (.vector placed (fun absent => ?_) about done))
        rw [absent] at allowed
        exact refers_iff.mp (by simpa using allowed)
      · exact .drop

/-- Writing vectors leaves the tools table alone. -/
theorem over_embedLevel_tools (env : Env V) (level : VecLevel) (job : EmbedJob) :
    ((embedLevel env level job s).1.over s).tools = s.tools := by
  unfold embedLevel writeVecAsync
  split
  · rfl
  · split
    · rfl
    · split
      · rename_i written done
        exact writeVec_tools done
      · cases level <;> rfl

theorem embedRest_knows {tools : ToolTable} {jobs : List EmbedJob}
    (placed : ∀ job ∈ jobs, Placed tools job.rowId job.toolId job.toolName) :
    ∀ rest ∈ (embedRest jobs : Option (Task V)), rest.Knows About tools := by
  unfold embedRest
  split
  · exact fun _ none => by cases none
  · rintro _ ⟨⟩
    exact placed

theorem soundSegment_commitRow {row : ToolRow} (isHead : row.isHead = true)
    (wellFormed : WellFormed s.tools.rows) (form : WellFormedRow row)
    {toolChangelogs : List Changelog} (summaryL1 summaryL2 changelog : String)
    (logged : toolChangelogs = s.toolChangelogs ∨
      ∃ entry, entry.toolId = row.toolId ∧ toolChangelogs = s.toolChangelogs ++ [entry]) :
    SoundSegment About task s (commitRow row toolChangelogs summaryL1 summaryL2 changelog s) := by
  unfold commitRow
  split
  · exact soundSegment_rollback
  · rename_i tools committed
    have written := commitHead_written isHead (fun _ => form) committed
    have there : ∃ stored ∈ tools.rows, stored.toolId = row.toolId := by
      refine ⟨stored s.tools row, ?_, rfl⟩
      rw [(commitHead_rows isHead committed).1]
      exact List.mem_append_right _ (List.mem_singleton_self _)
    have inserted : Change About task s { s with tools } := .tools written
    refine ⟨.commit ?_, ?_⟩
    · rcases logged with rfl | ⟨entry, same, rfl⟩
      · exact .single inserted
      · exact .tail (.single inserted) (.changelog (same ▸ there))
    · rintro _ ⟨⟩
      exact placed_rowIdOf (written.wellFormed wellFormed) form there

theorem wellFormedRow_versionRow {env : Env V} {toolName bump branch changeKind : String}
    {newDefinition : ToolDefinition} {old : ToolRow} (wellFormed : WellFormed s.tools.rows)
    (top : newestOn s.tools.rows toolName branch = some old) :
    WellFormedRow (versionRow env toolName newDefinition bump branch changeKind old) := by
  have made : Makes env s.tools.rows
      (.createVersion toolName newDefinition "" bump branch changeKind)
      (versionRow env toolName newDefinition bump branch changeKind old) :=
    .version .createVersion top
  exact made.wellFormedRow wellFormed.each

theorem wellFormedRow_promotedRow (env : Env V) (toolName : String) (head : ToolEntry V)
    (parent : ToolRow) : WellFormedRow (promotedRow env toolName head parent) := by
  have valid : isValidSemver stableInitialVersion = true := by decide
  have stage : VersionStage.stable = stageOf stableInitialVersion := by decide
  exact ⟨(toolIdOn_main _ _).symm, valid, legalBranch_main, stage⟩

theorem soundSegment_createVersion (env : Env V) (wellFormed : WellFormed s.tools.rows)
    (toolName : String) (newDefinition : ToolDefinition)
    (changelog bump branch changeKind : String) :
    SoundSegment About task s
      (createVersionSegment env toolName newDefinition changelog bump branch changeKind s) := by
  unfold createVersionSegment
  split
  · exact soundSegment_read
  · rename_i old top
    exact soundSegment_commitRow rfl wellFormed (wellFormedRow_versionRow wellFormed top) _ _ _
      (.inl rfl)

theorem soundSegment_createBranch (env : Env V) (wellFormed : WellFormed s.tools.rows)
    (toolName branchName fromVersion : String) :
    SoundSegment About task s (createBranchSegment env toolName branchName fromVersion s) := by
  unfold createBranchSegment
  split
  · exact soundSegment_read
  · rename_i notMain
    split
    · exact soundSegment_read
    · rename_i legal
      rw [not_or] at legal
      split
      · exact soundSegment_read
      · rename_i base fork
        dsimp only
        split
        · exact soundSegment_read
        · have made : Makes env s.tools.rows (.createBranch toolName branchName fromVersion) _ :=
            .branch notMain ⟨legal.2, legal.1⟩ fork
          exact soundSegment_commitRow rfl wellFormed (made.wellFormedRow wellFormed.each) _ _ _
            (.inl rfl)

theorem soundSegment_promote (env : Env V) (wellFormed : WellFormed s.tools.rows)
    (toolName evidence : String) (head : ToolEntry V) :
    SoundSegment About task s (promoteSegment env toolName evidence head s) := by
  unfold promoteSegment
  split
  · exact soundSegment_read
  · dsimp only
    split
    · exact soundSegment_read
    · exact soundSegment_commitRow rfl wellFormed (wellFormedRow_promotedRow ..) _ _ _
        (.inr ⟨_, rfl, rfl⟩)

theorem upsertTool_changes {env : Env V} (wellFormed : WellFormed s.tools.rows)
    {entry : ToolEntry V} (about : ∀ v ∈ entry.embedding, About entry.toolName v)
    {toolId : String} {written : StoreState V}
    (done : upsertTool env entry s = (.ok toolId, written)) : Changes About task s written := by
  have form : WellFormedRow (upsertRow env entry s.tools.rows) :=
    (Makes.upsert : Makes env s.tools.rows (.upsertTool entry) _).wellFormedRow wellFormed.each
  have tools := upsertInto_written s.tools _ form
  have there : ∃ stored ∈ (upsertInto s.tools (upsertRow env entry s.tools.rows)).rows,
      stored.toolId = (upsertRow env entry s.tools.rows).toolId := by
    rcases upsertInto_rows s.tools (upsertRow env entry s.tools.rows) with
      ⟨rows, _⟩ | ⟨_, old, member, same⟩
    · refine ⟨stored s.tools (upsertRow env entry s.tools.rows), ?_, rfl⟩
      rw [rows]
      exact List.mem_append_right _ (List.mem_singleton_self _)
    · obtain ⟨later, here, toolId⟩ := tools.stays old member
      exact ⟨later, here, toolId.trans same⟩
  have row : Change About task s { s with tools := upsertInto s.tools _ } := .tools tools
  unfold upsertTool at done
  dsimp only at done
  split at done
  · cases done
    exact .single row
  · rename_i embedding given
    split at done
    · rename_i vector
      cases done
      refine .tail (.single row) (.vector ?_ (fun _ => there) (about embedding given) vector)
      exact placed_rowIdOf (tools.wellFormed wellFormed) form there
    · cases done

theorem newestOfTool_known {toolName : String} {row : ToolRow}
    (newest : newestOfTool s.tools.rows toolName = some row) : Known s row.toolId :=
  ⟨row, (newestOfTool_mem newest).1, rfl⟩

theorem soundSegment_base {env : Env V} (wellFormed : WellFormed s.tools.rows) {call : Call V}
    (knows : (Task.call (.base call)).Knows About s.tools) :
    SoundSegment About (.call (.base call)) s (baseSegment env s call) := by
  cases call with
  | upsertTool entry =>
      dsimp only [baseSegment]
      split
      · rename_i done
        exact soundSegment_commit (upsertTool_changes wellFormed knows done)
      · exact soundSegment_rollback
  | createVersion => exact soundSegment_createVersion env wellFormed ..
  | createBranch => exact soundSegment_createBranch env wellFormed ..
  | mergeBranch =>
      dsimp only [baseSegment]
      split
      · exact soundSegment_read
      · split
        · exact soundSegment_read
        · exact soundSegment_goOn trivial
  | rollback =>
      dsimp only [baseSegment]
      split
      · exact soundSegment_read
      · exact soundSegment_goOn trivial
  | promoteToStable =>
      dsimp only [baseSegment]
      split
      · exact soundSegment_read
      · split
        · exact soundSegment_read
        · exact soundSegment_goOn trivial
  | markExternal =>
      dsimp only [baseSegment]
      split
      · exact soundSegment_read
      · exact soundSegment_goOn trivial
  | deleteTool toolName version =>
      dsimp only [baseSegment]
      split
      · rename_i left done
        have same : left = (deleteTool toolName version s).2 := by rw [done]
        rw [same]
        exact soundSegment_commit (.single (.delete rfl))
      · exact soundSegment_read
  | addTag toolName tag =>
      dsimp only [baseSegment]
      split
      · exact soundSegment_read
      · rename_i row newest
        apply soundSegment_commit
        unfold addTag
        rw [newest]
        dsimp only
        split
        · exact .refl
        · rename_i new
          exact .single (.tag (newestOfTool_known newest) new)

theorem soundSegment_call {env : Env V} (wellFormed : WellFormed s.tools.rows)
    {call : StoreCall V} (knows : (Task.call call).Knows About s.tools) :
    SoundSegment About (.call call) s (callSegment env s call) := by
  cases call with
  | base call => exact soundSegment_base wellFormed knows
  | addChangelog =>
      dsimp only [callSegment]
      split
      · exact soundSegment_read
      · exact ⟨ends_insertChangelog _, fun _ none => by cases none⟩
  | updateEmbedding toolName =>
      dsimp only [callSegment]
      split
      · exact soundSegment_read
      · split
        · exact soundSegment_read
        · rename_i row newest
          obtain ⟨member, name⟩ := newestOfTool_mem newest
          exact soundSegment_goOn (name ▸ placed_of_mem wellFormed member)
  | rebuildSummaries =>
      dsimp only [callSegment]
      split
      · exact soundSegment_read
      · refine soundSegment_goOn fun fetched member => ?_
        obtain ⟨row, here, rfl⟩ := List.mem_map.mp member
        exact placed_of_mem wellFormed here
  | addAlias =>
      refine ⟨?_, fun _ none => by cases none⟩
      dsimp only [callSegment, addAlias]
      split
      · rename_i there
        exact .commit (.single (.aliased rfl (refers_iff.mp there)))
      · exact .same
  | addDependency =>
      refine ⟨?_, fun _ none => by cases none⟩
      dsimp only [callSegment, addDependency]
      split
      · rename_i src dst isSrc isDst
        refine .commit ?_
        split
        · exact .refl
        · rename_i new
          exact .single (.dependency (newestOfTool_known isSrc) (newestOfTool_known isDst)
            fun already => new (List.elem_eq_true_of_mem already))
      · exact .same

/-- Every segment makes only changes of its task. -/
theorem soundSegment {env : Env V} (embeds : EmbedsAbout About env)
    (wellFormed : WellFormed s.tools.rows) (knows : task.Knows About s.tools) :
    SoundSegment About task s (taskSegment env s task) := by
  cases task with
  | call call => exact soundSegment_call wellFormed knows
  | promote => exact soundSegment_promote env wellFormed ..
  | mark toolName headVersion =>
      refine ⟨.commit (.single (.tools (setExternal_written toolName s.tools))), ?_⟩
      dsimp only [taskSegment]
      split
      · exact fun _ none => by cases none
      · rintro _ ⟨⟩
        trivial
  | embed level job changelog =>
      refine ⟨ends_embedLevel embeds knows level, ?_⟩
      dsimp only [taskSegment]
      rw [over_embedLevel_tools]
      split
      · rintro _ ⟨⟩
        exact knows
      · unfold afterEmbed
        split
        · exact fun _ none => by cases none
        · rintro _ ⟨⟩
          trivial
  | log => exact ⟨ends_insertChangelog _, fun _ none => by cases none⟩
  | applySummaries fetched =>
      have written := updateSummaries_written (fetched.map (FetchedRow.job env)) s.tools
      refine ⟨.commit (.single (.tools written)), ?_⟩
      dsimp only [taskSegment]
      split
      · refine embedRest_knows fun job member => ?_
        obtain ⟨row, here, rfl⟩ := List.mem_map.mp member
        exact (knows row here).follows written.toFollows
      · exact fun _ none => by cases none
  | embedSummaries level jobs =>
      cases jobs with
      | nil => exact soundSegment_read
      | cons job rest =>
          refine ⟨ends_embedLevel embeds (knows job List.mem_cons_self) level, ?_⟩
          dsimp only [taskSegment]
          rw [over_embedLevel_tools]
          split
          · rintro _ ⟨⟩
            exact knows
          · exact embedRest_knows fun other member => knows other (List.mem_cons_of_mem _ member)

end Segments

end YouMi.Mcp.ToolStore
