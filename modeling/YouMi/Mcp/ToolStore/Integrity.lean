import YouMi.Mcp.ToolStore.TransactionLaws

/-!
# The integrity of the store

What the foreign keys and primary keys of the schema ask for, and what the `vec0`
tables, which have no foreign keys, keep without being asked: a vector under a row
id is of the tool that has or had that row.
-/

namespace YouMi.Mcp.ToolStore

open YouMi.Core YouMi.Library YouMi.Library.Tasks

variable {V : Type}

/-- `REFERENCES tools(tool_id)`, for each of the tables that declare it. -/
structure References (s : StoreState V) : Prop where
  changelogs : ∀ entry ∈ s.toolChangelogs, Known s entry.toolId
  tags : ∀ entry ∈ s.toolTags, Known s entry.1
  aliases : ∀ entry ∈ s.toolAliases, Known s entry.2
  dependencies : ∀ entry ∈ s.toolDependencies, Known s entry.1 ∧ Known s entry.2
  vectors : ∀ entry ∈ s.vecTools, Known s entry.toolId

structure PrimaryKeys (s : StoreState V) : Prop where
  tags : s.toolTags.Nodup
  aliases : (s.toolAliases.map Prod.fst).Nodup
  dependencies : s.toolDependencies.Nodup
  vectors : (s.vecTools.map fun entry => (entry.toolId, entry.level)).Nodup
  index : IndexKeyed s

/-- The vectors that a row is found by are about its tool. -/
structure VectorsAbout (About : String → V → Prop) (s : StoreState V) : Prop where
  given : ∀ level, ∀ entry ∈ s.index level, entry.1 ≤ s.tools.seq
  index : ∀ level, ∀ entry ∈ s.index level, ∀ row ∈ s.tools.rows, row.id = entry.1 →
    About row.toolName entry.2
  json : ∀ entry ∈ s.vecTools, ∀ row ∈ s.tools.rows, row.toolId = entry.toolId →
    About row.toolName entry.embedding
  normalize : ∀ vec ∈ s.vecExtension, ∀ toolName v, About toolName v →
    About toolName (vec.normalize v)

structure Integrity (About : String → V → Prop) (s : StoreState V) : Prop where
  wellFormed : WellFormed s.tools.rows
  references : References s
  keys : PrimaryKeys s
  vectors : VectorsAbout About s

/-! ## Vectors -/

theorem writeVec_frame {level : VecLevel} {rowId : Nat} {toolId toolName : String} {embedding : V}
    {s written : StoreState V}
    (done : writeVec level rowId toolId toolName embedding s = some written) :
    written =
      { s with
        vecTools := written.vecTools
        vecToolsIdx := written.vecToolsIdx
        vecToolsL2Idx := written.vecToolsL2Idx } := by
  unfold writeVec at done
  split at done
  · split at done
    · cases level <;> cases done <;> rfl
    · cases done
  · split at done <;> cases done <;> rfl

/-- What is in the index after a write. -/
theorem mem_index_writeVec {level level' : VecLevel} {rowId : Nat} {toolId toolName : String}
    {embedding : V} {s written : StoreState V}
    (done : writeVec level rowId toolId toolName embedding s = some written) {entry : Nat × V}
    (member : entry ∈ written.index level') :
    entry ∈ s.index level' ∨
      ∃ vec, s.vecExtension = some vec ∧ entry = (rowId, vec.normalize embedding) := by
  unfold writeVec at done
  split at done
  · rename_i vec loaded
    split at done
    · cases level <;> cases done <;> cases level'
      · rcases List.mem_append.mp member with old | new
        · exact .inl (List.mem_filter.mp old).1
        · exact .inr ⟨vec, loaded, List.mem_singleton.mp new⟩
      · exact .inl member
      · exact .inl member
      · rcases List.mem_append.mp member with old | new
        · exact .inl (List.mem_filter.mp old).1
        · exact .inr ⟨vec, loaded, List.mem_singleton.mp new⟩
    · cases done
  · split at done <;> cases done <;> cases level' <;> exact .inl member

/-- What is in the JSON table after a write. -/
theorem mem_vecTools_writeVec {level : VecLevel} {rowId : Nat} {toolId toolName : String}
    {embedding : V} {s written : StoreState V}
    (done : writeVec level rowId toolId toolName embedding s = some written) {entry : VecRow V}
    (member : entry ∈ written.vecTools) :
    entry ∈ s.vecTools ∨
      s.vecExtension = none ∧ entry.toolId = toolId ∧ entry.embedding = embedding := by
  unfold writeVec at done
  split at done
  · split at done
    · cases level <;> cases done <;> exact .inl member
    · cases done
  · rename_i absent
    split at done
    · cases done
      obtain ⟨old, here, rfl⟩ := List.mem_map.mp member
      split
      · rename_i same
        exact .inr ⟨absent, same.1, rfl⟩
      · exact .inl here
    · cases done
      rcases List.mem_append.mp member with old | new
      · exact .inl old
      · rw [List.mem_singleton.mp new]
        exact .inr ⟨absent, rfl, rfl⟩

theorem vecTools_nodup_writeVec {level : VecLevel} {rowId : Nat} {toolId toolName : String}
    {embedding : V} {s written : StoreState V}
    (done : writeVec level rowId toolId toolName embedding s = some written)
    (nodup : (s.vecTools.map fun entry => (entry.toolId, entry.level)).Nodup) :
    (written.vecTools.map fun entry => (entry.toolId, entry.level)).Nodup := by
  unfold writeVec at done
  split at done
  · split at done
    · cases level <;> cases done <;> exact nodup
    · cases done
  · split at done
    · cases done
      rw [List.map_map]
      convert nodup using 2
      funext entry
      simp only [Function.comp_apply]
      split <;> rfl
    · rename_i new
      cases done
      rw [List.map_append, List.map_singleton]
      refine List.nodup_append.mpr ⟨nodup, List.nodup_singleton _, ?_⟩
      intro key old other same
      obtain ⟨entry, member, rfl⟩ := List.mem_map.mp old
      rw [List.mem_singleton.mp same]
      intro equal
      obtain ⟨toolId, level⟩ := Prod.mk.inj equal
      exact new (List.any_eq_true.mpr ⟨entry, member, by simp [toolId, level]⟩)

theorem dropVec_frame (level : VecLevel) (rowId : Nat) (s : StoreState V) :
    dropVec level rowId s =
      { s with
        vecToolsIdx := (dropVec level rowId s).vecToolsIdx
        vecToolsL2Idx := (dropVec level rowId s).vecToolsL2Idx } := by
  cases level <;> rfl

theorem index_dropVec_sublist (level level' : VecLevel) (rowId : Nat) (s : StoreState V) :
    ((dropVec level rowId s).index level').Sublist (s.index level') := by
  cases level <;> cases level'
  · exact List.filter_sublist
  · exact List.Sublist.refl _
  · exact List.Sublist.refl _
  · exact List.filter_sublist

/-! ## Deleting -/

/-- Some of the rows that a deletion is about has the identifier. -/
def Gone (toolName version toolId : String) (s : StoreState V) : Prop :=
  ∃ row ∈ s.tools.rows, selects toolName version row = true ∧ row.toolId = toolId

/-- A deletion filters every table. -/
structure Deleted (toolName version : String) (s left : StoreState V) : Prop where
  tools : left.tools = s.tools.delete (selects toolName version)
  changelogs : ∀ entry, entry ∈ left.toolChangelogs ↔
    entry ∈ s.toolChangelogs ∧ ¬ Gone toolName version entry.toolId s
  tags : left.toolTags.Sublist s.toolTags ∧
    ∀ entry ∈ left.toolTags, ¬ Gone toolName version entry.1 s
  aliases : left.toolAliases.Sublist s.toolAliases ∧
    ∀ entry ∈ s.toolAliases, entry ∈ left.toolAliases ↔ ¬ Gone toolName version entry.2 s
  dependencies : left.toolDependencies.Sublist s.toolDependencies ∧
    ∀ entry ∈ left.toolDependencies,
      ¬ Gone toolName version entry.1 s ∧ ¬ Gone toolName version entry.2 s
  vectors : left.vecTools.Sublist s.vecTools ∧
    ∀ entry ∈ left.vecTools, ¬ Gone toolName version entry.toolId s
  index : ∀ level, (left.index level).Sublist (s.index level)
  vecExtension : left.vecExtension = s.vecExtension

theorem gone_iff {toolName version toolId : String} {s : StoreState V} :
    ((s.tools.rows.filter (selects toolName version)).any fun row => row.toolId = toolId) = true ↔
      Gone toolName version toolId s := by
  rw [List.any_eq_true]
  constructor
  · rintro ⟨row, member, same⟩
    obtain ⟨here, selected⟩ := List.mem_filter.mp member
    exact ⟨row, here, selected, by simpa using same⟩
  · rintro ⟨row, here, selected, same⟩
    exact ⟨row, List.mem_filter.mpr ⟨here, selected⟩, by simpa using same⟩

theorem deleteTool_deleted (toolName version : String) (s : StoreState V) :
    Deleted toolName version s (deleteTool toolName version s).2 := by
  have gone (toolId : String) :
      (!(s.tools.rows.filter (selects toolName version)).any fun row => row.toolId = toolId) =
        true ↔ ¬ Gone toolName version toolId s := by
    rw [Bool.not_eq_true', ← Bool.not_eq_true, gone_iff]
  unfold deleteTool
  dsimp only
  split
  · -- Nothing is selected, so filtering leaves everything.
    rename_i nothing
    have stays : ∀ row ∈ s.tools.rows, selects toolName version row = false := by
      intro row member
      simpa using List.filter_eq_nil_iff.mp nothing.2 row member
    have noneGone (toolId : String) : ¬ Gone toolName version toolId s := by
      rintro ⟨row, member, selected, _⟩
      rw [stays row member] at selected
      cases selected
    exact ⟨(RowTable.delete_eq_self stays).symm, by simp [noneGone], by simp [noneGone],
      by simp [noneGone], by simp [noneGone], by simp [noneGone], fun _ => .refl _, rfl⟩
  · refine ⟨rfl, ?_, ?_, ?_, ?_, ?_, ?_, rfl⟩
    · intro entry
      rw [← gone]
      exact List.mem_filter
    · exact ⟨List.filter_sublist, fun entry member =>
        (gone _).mp (List.mem_filter.mp member).2⟩
    · refine ⟨List.filter_sublist, fun entry member => ?_⟩
      rw [← gone]
      exact List.mem_filter.trans (and_iff_right member)
    · refine ⟨List.filter_sublist, fun entry member => ?_⟩
      have kept := Bool.and_eq_true_iff.mp (List.mem_filter.mp member).2
      exact ⟨(gone _).mp kept.1, (gone _).mp kept.2⟩
    · exact ⟨List.filter_sublist, fun entry member =>
        (gone _).mp (List.mem_filter.mp member).2⟩
    · intro level
      cases level <;> dsimp only [StoreState.index, deleteVecs] <;> split
      · exact List.filter_sublist
      · exact List.Sublist.refl _
      · exact List.filter_sublist
      · exact List.Sublist.refl _

theorem known_delete {toolName version toolId : String} {s left : StoreState V}
    (deleted : Deleted toolName version s left) (known : Known s toolId)
    (stays : ¬ Gone toolName version toolId s) : Known left toolId := by
  obtain ⟨row, member, rfl⟩ := known
  refine ⟨row, ?_, rfl⟩
  rw [deleted.tools]
  refine List.mem_filter.mpr ⟨member, ?_⟩
  rw [Bool.not_eq_true', ← Bool.not_eq_true]
  exact fun selected => stays ⟨row, member, selected, rfl⟩

/-! ## Changes keep the integrity -/

section Changes

variable {About : String → V → Prop} {task : Task V} {s next : StoreState V}

theorem Written.known {s : StoreState V} {tools : ToolTable} (written : Written s.tools tools)
    {toolId : String} (known : Known s toolId) : Known { s with tools } toolId := by
  obtain ⟨row, member, rfl⟩ := known
  exact written.stays row member

/-- References hold of any state that refers to no more, and knows as much. -/
theorem References.of_known (references : References s)
    (known : ∀ toolId, Known s toolId → Known next toolId)
    (changelogs : next.toolChangelogs = s.toolChangelogs) (tags : next.toolTags = s.toolTags)
    (aliases : next.toolAliases = s.toolAliases)
    (dependencies : next.toolDependencies = s.toolDependencies)
    (vectors : ∀ entry ∈ next.vecTools, Known next entry.toolId) : References next where
  changelogs := by
    rw [changelogs]
    exact fun entry member => known _ (references.changelogs entry member)
  tags := by
    rw [tags]
    exact fun entry member => known _ (references.tags entry member)
  aliases := by
    rw [aliases]
    exact fun entry member => known _ (references.aliases entry member)
  dependencies := by
    rw [dependencies]
    exact fun entry member => (references.dependencies entry member).imp (known _) (known _)
  vectors := vectors

theorem Integrity.tools (integrity : Integrity About s) {tools : ToolTable}
    (written : Written s.tools tools) : Integrity About { s with tools } where
  wellFormed := written.wellFormed integrity.wellFormed
  references := by
    refine integrity.references.of_known (fun _ => written.known) rfl rfl rfl rfl ?_
    exact fun entry member => written.known (integrity.references.vectors entry member)
  keys := ⟨integrity.keys.tags, integrity.keys.aliases, integrity.keys.dependencies,
    integrity.keys.vectors, ⟨integrity.keys.index.l1, integrity.keys.index.l2⟩⟩
  vectors := by
    have vectors := integrity.vectors
    have given : ∀ level, ∀ entry ∈ s.index level, entry.1 ≤ tools.seq :=
      fun level entry member => (vectors.given level entry member).trans written.seq
    refine ⟨fun level => given level, ?_, ?_, vectors.normalize⟩
    · intro level entry member row here same
      obtain ⟨old, there, id, _, name⟩ :=
        written.old row here (same ▸ vectors.given level entry member)
      exact name ▸ vectors.index level entry member old there (id.trans same)
    · intro entry member row here same
      -- The row with the identifier that is there is the only one after the statement.
      obtain ⟨old, there, toolId⟩ := integrity.references.vectors entry member
      obtain ⟨later, after, toolId'⟩ := written.stays old there
      have equal : later = row :=
        RowTable.eq_of_uniqueKey after here ((toolId'.trans toolId).trans same.symm)
      have form := (written.wellFormed integrity.wellFormed).each later after
      have name := (integrity.wellFormed.each old there).toolName_eq form toolId'.symm
      rw [← equal, ← name]
      exact vectors.json entry member old there toolId

theorem Integrity.writeVec (integrity : Integrity About s) {level : VecLevel} {rowId : Nat}
    {toolId toolName : String} {embedding : V} (placed : Placed s.tools rowId toolId toolName)
    (known : s.vecExtension = none → Known s toolId) (about : About toolName embedding)
    (done : writeVec level rowId toolId toolName embedding s = some next) :
    Integrity About next := by
  have frame := writeVec_frame done
  have tools := writeVec_tools done
  have knows (toolId : String) : Known s toolId → Known next toolId := by
    unfold Known
    rw [tools]
    exact id
  have keys := integrity.keys
  refine ⟨tools ▸ integrity.wellFormed, ?_, ?_, ?_⟩
  · refine integrity.references.of_known knows (by rw [frame]) (by rw [frame]) (by rw [frame])
      (by rw [frame]) fun entry member => ?_
    rcases mem_vecTools_writeVec done member with old | ⟨absent, same, _⟩
    · exact knows _ (integrity.references.vectors entry old)
    · exact knows _ (same ▸ known absent)
  · refine ⟨?_, ?_, ?_, vecTools_nodup_writeVec done keys.vectors, keys.index.writeVec done⟩
    · rw [frame]
      exact keys.tags
    · rw [frame]
      exact keys.aliases
    · rw [frame]
      exact keys.dependencies
  · refine ⟨fun level' entry member => ?_, fun level' entry member row here same => ?_,
      fun entry member row here same => ?_, ?_⟩
    · rw [tools]
      rcases mem_index_writeVec done member with old | ⟨_, _, rfl⟩
      · exact integrity.vectors.given level' entry old
      · exact placed.given
    · rw [tools] at here
      rcases mem_index_writeVec done member with old | ⟨vec, loaded, rfl⟩
      · exact integrity.vectors.index level' entry old row here same
      · rw [placed.named row here same]
        exact integrity.vectors.normalize vec loaded _ _ about
    · rw [tools] at here
      rcases mem_vecTools_writeVec done member with old | ⟨_, toolId', rfl⟩
      · exact integrity.vectors.json entry old row here same
      · obtain ⟨model, form, id, name⟩ := placed.form
        have names := (integrity.wellFormed.each row here).toolName_eq form
          (same.trans (toolId'.trans id.symm))
        rw [names, name]
        exact about
    · rw [frame]
      exact integrity.vectors.normalize

theorem Integrity.dropVec (integrity : Integrity About s) (level : VecLevel) (rowId : Nat) :
    Integrity About (dropVec level rowId s) := by
  have frame := dropVec_frame level rowId s
  have sublist (level' : VecLevel) := index_dropVec_sublist level level' rowId s
  have tools : (ToolStore.dropVec level rowId s).tools = s.tools := by rw [frame]
  have json : (ToolStore.dropVec level rowId s).vecTools = s.vecTools := by rw [frame]
  have knows (toolId : String) : Known s toolId → Known (ToolStore.dropVec level rowId s) toolId := by
    unfold Known
    rw [tools]
    exact id
  have keys := integrity.keys
  refine ⟨tools ▸ integrity.wellFormed, ?_, ?_, ?_⟩
  · refine integrity.references.of_known knows (by rw [frame]) (by rw [frame]) (by rw [frame])
      (by rw [frame]) fun entry member => ?_
    exact knows _ (integrity.references.vectors entry (json ▸ member))
  · refine ⟨?_, ?_, ?_, ?_, ⟨keys.index.l1.sublist ((sublist .l1).map _),
      keys.index.l2.sublist ((sublist .l2).map _)⟩⟩ <;> rw [frame]
    · exact keys.tags
    · exact keys.aliases
    · exact keys.dependencies
    · exact keys.vectors
  · refine ⟨fun level' entry member => ?_, fun level' entry member row here same => ?_,
      fun entry member row here same => ?_, ?_⟩
    · rw [tools]
      exact integrity.vectors.given level' entry ((sublist level').mem member)
    · exact integrity.vectors.index level' entry ((sublist level').mem member) row (tools ▸ here)
        same
    · exact integrity.vectors.json entry (json ▸ member) row (tools ▸ here) same
    · rw [frame]
      exact integrity.vectors.normalize

theorem Integrity.deleted (integrity : Integrity About s) {toolName version : String}
    (deleted : Deleted toolName version s next) : Integrity About next := by
  have references := integrity.references
  have keys := integrity.keys
  have follows : Follows s.tools next.tools := by
    rw [deleted.tools]
    exact delete_follows ..
  have rows : ∀ row ∈ next.tools.rows, row ∈ s.tools.rows := by
    rw [deleted.tools]
    exact fun row member => (List.mem_filter.mp member).1
  refine ⟨?_, ⟨?_, ?_, ?_, ?_, ?_⟩, ⟨?_, ?_, ?_, ?_, ?_⟩, ⟨?_, ?_, ?_, ?_⟩⟩
  · rw [deleted.tools]
    exact integrity.wellFormed.filter _
  · intro entry member
    obtain ⟨old, stays⟩ := (deleted.changelogs entry).mp member
    exact known_delete deleted (references.changelogs entry old) stays
  · intro entry member
    exact known_delete deleted (references.tags entry (deleted.tags.1.mem member))
      (deleted.tags.2 entry member)
  · intro entry member
    have old := deleted.aliases.1.mem member
    exact known_delete deleted (references.aliases entry old)
      ((deleted.aliases.2 entry old).mp member)
  · intro entry member
    obtain ⟨known, known'⟩ := references.dependencies entry (deleted.dependencies.1.mem member)
    obtain ⟨stays, stays'⟩ := deleted.dependencies.2 entry member
    exact ⟨known_delete deleted known stays, known_delete deleted known' stays'⟩
  · intro entry member
    exact known_delete deleted (references.vectors entry (deleted.vectors.1.mem member))
      (deleted.vectors.2 entry member)
  · exact keys.tags.sublist deleted.tags.1
  · exact keys.aliases.sublist (deleted.aliases.1.map _)
  · exact keys.dependencies.sublist deleted.dependencies.1
  · exact keys.vectors.sublist (deleted.vectors.1.map _)
  · exact ⟨keys.index.l1.sublist ((deleted.index .l1).map _),
      keys.index.l2.sublist ((deleted.index .l2).map _)⟩
  · intro level entry member
    exact (integrity.vectors.given level entry ((deleted.index level).mem member)).trans follows.seq
  · intro level entry member row here
    exact integrity.vectors.index level entry ((deleted.index level).mem member) row (rows row here)
  · intro entry member row here
    exact integrity.vectors.json entry (deleted.vectors.1.mem member) row (rows row here)
  · rw [deleted.vecExtension]
    exact integrity.vectors.normalize

theorem mem_setAlias_iff {aliasName toolId : String} {aliases : List (String × String)}
    {entry : String × String} :
    entry ∈ setAlias aliasName toolId aliases ↔
      entry = (aliasName, toolId) ∨ entry ∈ aliases ∧ entry.1 ≠ aliasName := by
  unfold setAlias
  split
  · rename_i there
    obtain ⟨old, here, same⟩ := List.any_eq_true.mp there
    rw [List.mem_map]
    constructor
    · rintro ⟨before, member, rfl⟩
      split
      · exact .inl rfl
      · rename_i other
        exact .inr ⟨member, other⟩
    · rintro (rfl | ⟨member, other⟩)
      · exact ⟨old, here, if_pos (by simpa using same)⟩
      · exact ⟨entry, member, if_neg other⟩
  · rename_i absent
    have apart : ∀ old ∈ aliases, old.1 ≠ aliasName := by
      intro old member same
      exact absent (List.any_eq_true.mpr ⟨old, member, by simpa using same⟩)
    rw [List.mem_append, List.mem_singleton, or_comm]
    exact or_congr_right (iff_self_and.mpr (apart entry))

theorem setAlias_names (aliasName toolId : String) (aliases : List (String × String)) :
    (setAlias aliasName toolId aliases).map Prod.fst =
      if aliasName ∈ aliases.map Prod.fst then aliases.map Prod.fst
      else aliases.map Prod.fst ++ [aliasName] := by
  have there : (aliases.any fun entry => entry.1 = aliasName) = true ↔
      aliasName ∈ aliases.map Prod.fst := by
    simp
  unfold setAlias
  by_cases already : aliasName ∈ aliases.map Prod.fst
  · rw [if_pos (there.mpr already), if_pos already, List.map_map]
    apply List.map_congr_left
    intro entry _
    simp only [Function.comp_apply]
    split
    · rename_i same
      exact same.symm
    · rfl
  · rw [if_neg (mt there.mp already), if_neg already, List.map_append, List.map_singleton]

/-- New entries that refer to rows and repeat no key. -/
theorem Integrity.entries (integrity : Integrity About s) {toolChangelogs : List Changelog}
    {toolTags toolAliases toolDependencies : List (String × String)}
    (changelogs : ∀ entry ∈ toolChangelogs, Known s entry.toolId)
    (tags : toolTags.Nodup ∧ ∀ entry ∈ toolTags, Known s entry.1)
    (aliases : (toolAliases.map Prod.fst).Nodup ∧ ∀ entry ∈ toolAliases, Known s entry.2)
    (dependencies : toolDependencies.Nodup ∧
      ∀ entry ∈ toolDependencies, Known s entry.1 ∧ Known s entry.2) :
    Integrity About { s with toolChangelogs, toolTags, toolAliases, toolDependencies } where
  wellFormed := integrity.wellFormed
  references := ⟨changelogs, tags.2, aliases.2, dependencies.2, integrity.references.vectors⟩
  keys := ⟨tags.1, aliases.1, dependencies.1, integrity.keys.vectors,
    ⟨integrity.keys.index.l1, integrity.keys.index.l2⟩⟩
  vectors := ⟨integrity.vectors.given, integrity.vectors.index, integrity.vectors.json,
    integrity.vectors.normalize⟩

theorem forall_mem_concat {α : Type} {P : α → Prop} {list : List α} {last : α}
    (each : ∀ entry ∈ list, P entry) (new : P last) : ∀ entry ∈ list ++ [last], P entry :=
  List.forall_mem_append.mpr ⟨each, List.forall_mem_singleton.mpr new⟩

/-- Whatever a segment does keeps the integrity. -/
theorem Integrity.change (integrity : Integrity About s) (change : Change About task s next) :
    Integrity About next := by
  obtain ⟨changelogs, tags, aliases, dependencies, _⟩ := integrity.references
  have keys := integrity.keys
  cases change with
  | tools written => exact integrity.tools written
  | changelog known =>
      exact integrity.entries (forall_mem_concat changelogs known) ⟨keys.tags, tags⟩
        ⟨keys.aliases, aliases⟩ ⟨keys.dependencies, dependencies⟩
  | vector placed known about done => exact integrity.writeVec placed known about done
  | drop => exact integrity.dropVec _ _
  | tag known new =>
      have nodup := List.concat_eq_append ▸ keys.tags.concat new
      exact integrity.entries changelogs ⟨nodup, forall_mem_concat tags known⟩
        ⟨keys.aliases, aliases⟩ ⟨keys.dependencies, dependencies⟩
  | aliased _ known =>
      refine integrity.entries changelogs ⟨keys.tags, tags⟩ ⟨?_, fun entry member => ?_⟩
        ⟨keys.dependencies, dependencies⟩
      · rw [setAlias_names]
        split
        · exact keys.aliases
        · rename_i new
          exact List.concat_eq_append ▸ keys.aliases.concat new
      · rcases mem_setAlias_iff.mp member with rfl | ⟨old, _⟩
        · exact known
        · exact aliases entry old
  | dependency known known' new =>
      have nodup := List.concat_eq_append ▸ keys.dependencies.concat new
      exact integrity.entries changelogs ⟨keys.tags, tags⟩ ⟨keys.aliases, aliases⟩
        ⟨nodup, forall_mem_concat dependencies ⟨known, known'⟩⟩
  | delete => exact integrity.deleted (deleteTool_deleted ..)

theorem Change.follows (change : Change About task s next) : Follows s.tools next.tools := by
  cases change with
  | tools written => exact written.toFollows
  | changelog => exact .refl _
  | vector _ _ _ done => exact writeVec_tools done ▸ .refl _
  | @drop level rowId =>
      rw [dropVec_frame]
      exact .refl _
  | tag => exact .refl _
  | aliased => exact .refl _
  | dependency => exact .refl _
  | @delete toolName version _ =>
      rw [(deleteTool_deleted toolName version s).tools]
      exact delete_follows ..

theorem Integrity.changes (integrity : Integrity About s) (changes : Changes About task s next) :
    Integrity About next := by
  induction changes with
  | refl => exact integrity
  | tail _ change ih => exact ih.change change

theorem Changes.follows (changes : Changes About task s next) : Follows s.tools next.tools := by
  induction changes with
  | refl => exact .refl _
  | tail _ change ih => exact ih.trans change.follows

end Changes

/-! ## All interleavings -/

/-- The two states of a connection differ in the indices at most, by what is left open. -/
structure Sound (About : String → V → Prop) (connection : Connection V) : Prop where
  now : Integrity About connection.now
  committed : Integrity About connection.committed
  frame : connection.committed =
    { connection.now with
      vecToolsIdx := connection.committed.vecToolsIdx
      vecToolsL2Idx := connection.committed.vecToolsL2Idx }

theorem Sound.tools {About : String → V → Prop} {connection : Connection V}
    (sound : Sound About connection) : connection.committed.tools = connection.now.tools := by
  rw [sound.frame]

section Interleavings

variable {About : String → V → Prop} {task : Task V} {connection : Connection V}

theorem Sound.end (sound : Sound About connection) {ending : Ending V}
    (ends : Ends About task connection.now ending) : Sound About (connection.end ending) := by
  cases ends with
  | commit changes =>
      have next := sound.now.changes changes
      exact ⟨next, next, rfl⟩
  | rollback => exact ⟨sound.committed, sound.committed, rfl⟩
  | same => exact sound
  | @drop level rowId =>
      refine ⟨sound.now.dropVec level rowId, sound.committed, ?_⟩
      rw [dropVec_frame]
      exact sound.frame

theorem Sound.follows_end (sound : Sound About connection) {ending : Ending V}
    (ends : Ends About task connection.now ending) :
    Follows connection.now.tools (connection.end ending).now.tools := by
  cases ends with
  | commit changes => exact changes.follows
  | rollback => exact sound.tools ▸ .refl _
  | same => exact .refl _
  | @drop level rowId =>
      rw [Connection.end, dropVec_frame]
      exact .refl _

theorem Sound.over (sound : Sound About connection) (ending : Ending V) :
    (ending.over connection.now).tools = (connection.end ending).now.tools := by
  cases ending with
  | commit => rfl
  | rollback => exact sound.tools.symm
  | leave => rfl

theorem Task.Knows.follows {before after : ToolTable} (knows : task.Knows About before)
    (follows : Follows before after) : task.Knows About after := by
  cases task with
  | call call =>
      cases call with
      | base call => cases call <;> exact knows
      | _ => trivial
  | embed => exact Placed.follows knows follows
  | applySummaries => exact fun row member => (knows row member).follows follows
  | embedSummaries => exact fun job member => (knows job member).follows follows
  | _ => trivial

/-- The vector of an entry is about its tool. -/
def StartsAbout (About : String → V → Prop) : StoreCall V → Prop
  | .base (.upsertTool entry) => ∀ v ∈ entry.embedding, About entry.toolName v
  | _ => True

theorem StartsAbout.knows {call : StoreCall V} (starts : StartsAbout About call)
    (tools : ToolTable) : (Task.call call).Knows About tools := by
  cases call with
  | base call => cases call <;> exact starts
  | _ => trivial

/-- Segments keep the store sound, and never disturb what another task relies on. -/
theorem guaranteed_segment :
    Guaranteed Task.call segment (StartsAbout About) (EmbedsAbout About) (Sound About)
      (fun task connection => task.Knows About connection.now.tools)
      (fun before after => Follows before.now.tools after.now.tools) where
  start starts _ := starts.knows _
  inv embeds sound knows := sound.end (soundSegment embeds sound.now.wellFormed knows).ends
  guarantee embeds sound knows :=
    sound.follows_end (soundSegment embeds sound.now.wellFormed knows).ends
  left embeds sound knows rest := by
    have left := (soundSegment embeds sound.now.wellFormed knows).left _ rest
    rwa [sound.over] at left
  stable knows follows := knows.follows follows

theorem sound_empty (vecExtension : Option (VecExtension V))
    (normalize : ∀ vec ∈ vecExtension, ∀ toolName v, About toolName v →
      About toolName (vec.normalize v)) : Sound About (emptyPool vecExtension).shared := by
  have integrity : Integrity About (StoreState.empty vecExtension) := by
    have none {α : Type} {P : α → Prop} : ∀ entry ∈ ([] : List α), P entry :=
      List.forall_mem_nil P
    refine ⟨wellFormed_empty vecExtension, ⟨none, none, none, none, none⟩,
      ⟨.nil, .nil, .nil, .nil, ⟨.nil, .nil⟩⟩, ⟨?_, ?_, none, normalize⟩⟩
    · intro level
      cases level <;> exact none
    · intro level
      cases level <;> exact none
  exact ⟨integrity, integrity, rfl⟩

end Interleavings

end YouMi.Mcp.ToolStore
