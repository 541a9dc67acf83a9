import YouMi.Mcp.ToolStore.Integrity

/-!
# Interleaved calls of the tool store

What holds of the store however the segments of its callers interleave: the schema,
the vectors that belong to a tool, and the version an alias resolves to.
-/

namespace YouMi.Mcp.ToolStore

open YouMi.Core YouMi.Library YouMi.Library.Tasks

variable {V : Type}

/-- Nothing is asked of vectors. -/
def Anything (_ : String) (_ : V) : Prop := True

theorem admitted_anything (next : Turn (StoreCall V) (Env V)) :
    Admitted (StartsAbout Anything) (EmbedsAbout Anything) next := by
  cases next with
  | spawn call =>
      cases call with
      | base call => cases call <;> first | exact fun _ _ => trivial | trivial
      | _ => trivial
  | resume => exact fun _ _ _ _ _ _ => trivial

/-- The connection is sound, and all tasks know what they rely on. -/
def SoundPool (pool : Pool (Connection V) (Task V)) : Prop :=
  Sound Anything pool.shared ∧ ∀ task ∈ pool.tasks, task.Knows Anything pool.shared.now.tools

theorem soundPool_turn {pool : Pool (Connection V) (Task V)} (sound : SoundPool pool)
    (next : Turn (StoreCall V) (Env V)) : SoundPool (callTurn pool next) :=
  guaranteed_segment.turn (admitted_anything next) sound.1 sound.2

theorem soundPool_throughout (vecExtension : Option (VecExtension V))
    (turns : List (Turn (StoreCall V) (Env V))) :
    Throughout callTurn SoundPool (emptyPool vecExtension) turns :=
  guaranteed_segment.throughout (sound_empty vecExtension fun _ _ _ _ _ => trivial)
    fun next _ => admitted_anything next

/-- What the schema declares of rows, references and keys. -/
structure SchemaHolds (s : StoreState V) : Prop where
  wellFormed : WellFormed s.tools.rows
  references : References s
  keys : PrimaryKeys s

theorem SoundPool.schemaHolds {pool : Pool (Connection V) (Task V)} (sound : SoundPool pool) :
    SchemaHolds pool.shared.now :=
  ⟨sound.1.now.wellFormed, sound.1.now.references, sound.1.now.keys⟩

/-- What is read of a row's vectors, for an entry and by searches, is about the row's tool. -/
structure ReadsOwnVectors (About : String → V → Prop) (s : StoreState V) : Prop where
  entry : ∀ row ∈ s.tools.rows, ∀ v ∈ (rowToEntry s row).embedding, About row.toolName v
  index : ∀ level, ∀ row ∈ s.tools.rows, ∀ v, (row.id, v) ∈ s.index level → About row.toolName v
  json : ∀ level, ∀ row ∈ s.tools.rows, ∀ v ∈ jsonVector s level row, About row.toolName v

theorem mem_of_lookup {α β : Type} [BEq α] [LawfulBEq α] {entries : List (α × β)} {key : α}
    {value : β} (found : entries.lookup key = some value) : (key, value) ∈ entries := by
  obtain ⟨first, later, rfl, _⟩ := List.lookup_eq_some_iff.mp found
  exact List.mem_append_right _ List.mem_cons_self

theorem VectorsAbout.readsOwnVectors {About : String → V → Prop} {s : StoreState V}
    (vectors : VectorsAbout About s) : ReadsOwnVectors About s where
  entry row member v found := by
    dsimp only [rowToEntry] at found
    split at found
    · have here : (row.id, v) ∈ s.vecToolsIdx := mem_of_lookup found
      exact vectors.index .l1 _ here row member rfl
    · obtain ⟨entry, isEntry, rfl⟩ := Option.map_eq_some_iff.mp found
      have same : entry.toolId = row.toolId := by simpa using List.find?_some isEntry
      exact vectors.json entry (List.mem_of_find?_eq_some isEntry) row member same.symm
  index level row member v here := vectors.index level _ here row member rfl
  json level row member v found := by
    obtain ⟨entry, isEntry, rfl⟩ := Option.map_eq_some_iff.mp found
    have same : entry.toolId = row.toolId ∧ entry.level = level := by
      simpa using List.find?_some isEntry
    exact vectors.json entry (List.mem_of_find?_eq_some isEntry) row member same.1.symm

/-- A client that embeds a text as itself; the call is about the tool whose name begins the text. -/
def echoing (now : Nat) : Env String := ⟨now, none, some some⟩

def BeginsWith (toolName vector : String) : Prop :=
  (toolName ++ ": ").toList <+: vector.toList

def echoedEntry : ToolEntry String :=
  ⟨"tool", plainDefinition "first", "provider", false, some "tool: first", "summary", "0.0.1",
    "python", "low", [], "", "l2", "generated", .candidate⟩

/-- A version is deleted while its vectors are made, and registered again. -/
def deletedMeanwhile : List (Turn (StoreCall String) (Env String)) :=
  [.spawn (.base (.upsertTool echoedEntry)), .resume 0 (echoing 1),
    .spawn (.base (.createVersion "tool" (plainDefinition "second") "changed" "patch" "main" "")),
    .resume 0 (echoing 2), .spawn (.base (.deleteTool "tool" "")), .resume 1 (echoing 3),
    .resume 0 (echoing 4), .spawn (.base (.upsertTool echoedEntry)), .resume 1 (echoing 5),
    .resume 0 (echoing 6)]

theorem embedsAbout_echoing (now : Nat) : EmbedsAbout BeginsWith (echoing now) := by
  rintro _ ⟨⟩ toolName text embedding made
  rw [← Option.some.inj made]
  exact ⟨text.toList, String.toList_append.symm⟩

/-- The task's next segment neither sets the alias to another version nor deletes the row. -/
def Task.KeepsAlias (aliasName toolId : String) (s : StoreState V) : Task V → Prop
  | .call (.addAlias other toolName version) =>
      other = aliasName → Known s (mainToolId toolName version) →
        mainToolId toolName version = toolId
  | .call (.base (.deleteTool toolName version)) => ¬ Gone toolName version toolId s
  | _ => True

def KeepsAlias (aliasName toolId : String) (pool : Pool (Connection V) (Task V)) :
    Turn (StoreCall V) (Env V) → Prop
  | .spawn _ => True
  | .resume place _ =>
      ∀ task ∈ pool.tasks[place]?, task.KeepsAlias aliasName toolId pool.shared.now

theorem changes_toolAliases {About : String → V → Prop} {task : Task V} {s next : StoreState V}
    (noAlias : ∀ aliasName toolName version, task ≠ .call (.addAlias aliasName toolName version))
    (noDelete : ∀ toolName version, task ≠ .call (.base (.deleteTool toolName version)))
    (changes : Changes About task s next) : next.toolAliases = s.toolAliases := by
  induction changes with
  | refl => rfl
  | tail _ change ih =>
      rw [← ih]
      cases change with
      | vector _ _ _ done => rw [writeVec_frame done]
      | drop => rw [dropVec_frame]
      | aliased adds => exact absurd adds (noAlias _ _ _)
      | delete deletes => exact absurd deletes (noDelete _ _)
      | _ => rfl

theorem Sound.toolAliases_end {About : String → V → Prop} {task : Task V}
    {connection : Connection V} (sound : Sound About connection)
    (noAlias : ∀ aliasName toolName version, task ≠ .call (.addAlias aliasName toolName version))
    (noDelete : ∀ toolName version, task ≠ .call (.base (.deleteTool toolName version)))
    {ending : Ending V} (ends : Ends About task connection.now ending) :
    (connection.end ending).now.toolAliases = connection.now.toolAliases := by
  cases ends with
  | commit changes => exact changes_toolAliases noAlias noDelete changes
  | rollback =>
      rw [Connection.end, sound.frame]
  | same => rfl
  | drop => rw [Connection.end, dropVec_frame]

theorem deleteTool_result (toolName version : String) (s : StoreState V) :
    deleteTool toolName version s = (.ok true, (deleteTool toolName version s).2) ∨
      deleteTool toolName version s = (.ok false, s) := by
  unfold deleteTool
  dsimp only
  split
  · exact .inr rfl
  · exact .inl rfl

theorem end_deleteTool (env : Env V) (toolName version : String) (connection : Connection V) :
    (connection.end (baseSegment env connection.now (.deleteTool toolName version)).1).now =
      (deleteTool toolName version connection.now).2 := by
  dsimp only [baseSegment]
  rcases deleteTool_result toolName version connection.now with deletes | nothing
  · rw [deletes]
    rfl
  · rw [nothing]
    rfl

section Aliased

variable {About : String → V → Prop} {aliasName toolId : String}

theorem aliased_addAlias_iff {connection : Connection V} {other toolName version : String}
    (aliased : (aliasName, toolId) ∈ connection.now.toolAliases) :
    (aliasName, toolId) ∈
        (connection.end (addAlias other toolName version connection.now)).now.toolAliases ↔
      (Task.call (.addAlias other toolName version)).KeepsAlias aliasName toolId
        connection.now := by
  dsimp only [addAlias, Task.KeepsAlias]
  split
  · rename_i there
    have known := refers_iff.mp there
    change _ ∈ setAlias _ _ _ ↔ _
    rw [mem_setAlias_iff]
    constructor
    · rintro (same | ⟨_, apart⟩) is _
      · exact (Prod.mk.inj same).2.symm
      · exact absurd is.symm apart
    · intro keeps
      by_cases is : other = aliasName
      · exact .inl (by rw [is, keeps is known])
      · exact .inr ⟨aliased, Ne.symm is⟩
  · rename_i absent
    exact iff_of_true aliased fun _ known => absurd (refers_iff.mpr known) absent

theorem aliased_segment_iff {connection : Connection V} {task : Task V} {env : Env V}
    (sound : Sound About connection) (embeds : EmbedsAbout About env)
    (knows : task.Knows About connection.now.tools)
    (aliased : (aliasName, toolId) ∈ connection.now.toolAliases) :
    (aliasName, toolId) ∈ (segment connection task env).1.now.toolAliases ↔
      task.KeepsAlias aliasName toolId connection.now := by
  have ends := (soundSegment embeds sound.now.wellFormed knows).ends
  have other
      (noAlias : ∀ aliasName toolName version,
        task ≠ .call (.addAlias aliasName toolName version))
      (noDelete : ∀ toolName version, task ≠ .call (.base (.deleteTool toolName version))) :
      (aliasName, toolId) ∈ (segment connection task env).1.now.toolAliases := by
    rw [segment, sound.toolAliases_end noAlias noDelete ends]
    exact aliased
  cases task with
  | call call =>
      cases call with
      | base call =>
          cases call with
          | deleteTool toolName version =>
              change _ ∈ (connection.end (baseSegment env connection.now
                (.deleteTool toolName version)).1).now.toolAliases ↔ _
              rw [end_deleteTool]
              exact (deleteTool_deleted toolName version connection.now).aliases.2 _ aliased
          | _ => exact iff_of_true (other (by simp) (by simp)) trivial
      | addAlias => exact aliased_addAlias_iff aliased
      | _ => exact iff_of_true (other (by simp) (by simp)) trivial
  | _ => exact iff_of_true (other (by simp) (by simp)) trivial

/-- The alias is set to the identifier after a turn just if the turn keeps it. -/
theorem aliased_turn_iff {pool : Pool (Connection V) (Task V)}
    {next : Turn (StoreCall V) (Env V)} (sound : Sound About pool.shared)
    (knows : ∀ task ∈ pool.tasks, task.Knows About pool.shared.now.tools)
    (admitted : Admitted (StartsAbout About) (EmbedsAbout About) next)
    (aliased : (aliasName, toolId) ∈ pool.shared.now.toolAliases) :
    (aliasName, toolId) ∈ (callTurn pool next).shared.now.toolAliases ↔
      KeepsAlias aliasName toolId pool next := by
  cases next with
  | spawn call => exact iff_of_true aliased trivial
  | resume place env =>
      unfold KeepsAlias callTurn turn
      dsimp only
      cases found : pool.tasks[place]? with
      | none => exact iff_of_true aliased fun _ none => by cases none
      | some task =>
          have known := knows task (List.mem_of_getElem? found)
          exact (aliased_segment_iff sound admitted known aliased).trans
            ⟨fun keeps _ same => by cases same; exact keeps, fun keeps => keeps task rfl⟩

/-- The alias resolves to the row with the identifier. -/
def ResolvesTo (aliasName toolId : String) (s : StoreState V) : Prop :=
  ∃ row, aliasRow s aliasName = some row ∧ row.toolId = toolId ∧
    resolveAlias s aliasName = some (rowToEntry s row)

/-- No alias dangles: it resolves to the row it is set to. -/
theorem resolvesTo_iff {s : StoreState V} (references : References s) (keys : PrimaryKeys s) :
    ResolvesTo aliasName toolId s ↔ (aliasName, toolId) ∈ s.toolAliases := by
  constructor
  · rintro ⟨row, found, rfl, _⟩
    obtain ⟨toolId, isSet, isRow⟩ := Option.bind_eq_some_iff.mp found
    rw [(rowById_mem isRow).2]
    exact mem_of_lookup isSet
  · intro aliased
    have isSet : s.toolAliases.lookup aliasName = some toolId := by
      cases lookup : s.toolAliases.lookup aliasName with
      | none =>
          have absent := List.lookup_eq_none_iff.mp lookup _ aliased
          simp at absent
      | some other =>
          have same := List.inj_on_of_nodup_map keys.aliases (mem_of_lookup lookup) aliased rfl
          rw [(Prod.mk.inj same).2]
    cases isRow : rowById s.tools.rows toolId with
    | none =>
        obtain ⟨row, member, same⟩ := references.aliases _ aliased
        exact absurd same (rowById_eq_none_iff.mp isRow row member)
    | some row =>
        have found : aliasRow s aliasName = some row := by
          rw [aliasRow, isSet]
          exact isRow
        exact ⟨row, found, (rowById_mem isRow).2, by rw [resolveAlias, found]; rfl⟩

end Aliased

/-- A tool is registered, and an alias is asked for; later the tool is tagged and deleted. -/
def aliasRequested : List (Turn (StoreCall Unit) (Env Unit)) :=
  [.spawn (.base (.upsertTool (plainEntry "0.0.1"))), .resume 0 (atTime 1),
    .spawn (.addAlias "old" "tool" "0.0.1"), .spawn (.base (.addTag "tool" "math")),
    .spawn (.base (.deleteTool "tool" "0.0.1"))]

end YouMi.Mcp.ToolStore
