import YouMi.Coordinator.FixStrategies
import YouMi.Knowledge.ResolvedEntries
import YouMi.Knowledge.TenantKnowledge

/-!
# Fixes in the global memory

`_persist_fix_to_memory` of `coordinator/tool_guardian.py` writes an entry about a fix, marks
it resolved, and then marks what a listing says is not resolved of the tool.  The listing
has a hundred entries at most.
-/

namespace YouMi.Coordinator

open YouMi.Core YouMi.Knowledge YouMi.Library YouMi.Memory YouMi.Python

variable {V κ : Type}

/-! ## The model -/

/-- `issue_type.value`. -/
def ToolIssueType.value : ToolIssueType → String
  | .unclearDescription => "unclear_description"
  | .parameterBoundary => "parameter_boundary"
  | .missingFeature => "missing_feature"
  | .unexpectedBehavior => "unexpected_behavior"
  | .errorHandling => "error_handling"
  | .other => "other"

/-- A modification with what is used of its report. -/
structure ToolModification where
  toolName : String
  reporterAgentId : String
  issueType : ToolIssueType
  oldDescription : PyVal
  newDescription : PyVal
  paramUpdates : PyVal := .dict []
  codeSuggestion : PyVal := .str ""
  timestamp : String

def ToolModification.toDict (modification : ToolModification) : Dict :=
  [("tool_name", .str modification.toolName),
    ("reporter_agent_id", .str modification.reporterAgentId),
    ("issue_type", .str modification.issueType.value),
    ("old_description", modification.oldDescription),
    ("new_description", modification.newDescription),
    ("param_updates", modification.paramUpdates),
    ("code_suggestion", modification.codeSuggestion),
    ("timestamp", .str modification.timestamp)]

/-- The text that describes a fix; `cut` is `f"{value[:count]}"`. -/
def fixSummary (cut : PyVal → Nat → Except Fault String) (toolName : String)
    (modification : ToolModification) : Except Fault String := do
  let description ←
    (if PyVal.pyEq modification.newDescription modification.oldDescription then .ok ""
      else (cut modification.newDescription 200).map (": " ++ ·))
  let suggestion ←
    (if truthy modification.codeSuggestion then
        (cut modification.codeSuggestion 300).map ("\n代码建议: " ++ ·)
      else .ok "")
  .ok ("ToolGuardian 修复 '" ++ toolName ++ "' 描述" ++ description ++ suggestion)

/-- `{"fix_entry_id", "resolved_count"}`. -/
structure MemoryResult where
  fixEntryId : String
  resolvedCount : Nat

/-- What the writes of a fix meet: a new id, the answer of the embedding client, the time of
the entry and the time at which each entry is marked. -/
structure FixWrite (V : Type) where
  entryId : String
  vector : Except Fault V
  created : Nat
  now : String → Nat

/-- The entry about a fix. -/
def fixEntry (agentId toolName summary : String) (modification : ToolModification)
    (write : FixWrite V) : KnowledgeEntry V where
  entryId := write.entryId
  category := .bugFix
  toolName := toolName
  content := summary
  sourceAgentId := agentId
  metadata :=
    [("issue_type", .str modification.issueType.value),
      ("reporter_agent_id", .str modification.reporterAgentId),
      ("modification", .dict modification.toDict)]
  createdAt := write.created
  updatedAt := write.created

/-- The steps in the `try` of `_persist_fix_to_memory`; no result where one raises. -/
def rememberFix (r : Retrieval V κ) (s : GlobalMemory) (base : KnowledgeBase V)
    (agentId toolName summary : String) (modification : ToolModification) (write : FixWrite V) :
    KnowledgeBase V × Option MemoryResult :=
  match s.addExperience r base (fixEntry agentId toolName summary modification write)
      write.vector with
  | (base, none) => (base, none)
  | (base, some entry) =>
      let (base, answer) := s.markResolved base entry.entryId summary (write.now entry.entryId)
      match answer.entry?, s.listEntries r base (some toolName) none true 100 with
      | some _, .entries unresolved =>
          let (base, count) := s.markEach summary write.now base unresolved
          (base, count.map fun count => ⟨entry.entryId, count⟩)
      | _, _ => (base, none)

/-- `_persist_fix_to_memory`; no result without a memory, or where it raises. -/
def persistFixToMemory (r : Retrieval V κ) (cut : PyVal → Nat → Except Fault String)
    (memory : Option GlobalMemory) (base : KnowledgeBase V) (agentId toolName : String)
    (modification : ToolModification) (write : FixWrite V) :
    KnowledgeBase V × Option MemoryResult :=
  match memory, fixSummary cut toolName modification with
  | some s, .ok summary => rememberFix r s base agentId toolName summary modification write
  | _, _ => (base, none)

/-! ## What is left unresolved -/

/-- The rows of the tool and the tenant that are not resolved. -/
def unresolvedOf (s : GlobalMemory) (base : KnowledgeBase V) (toolName : String) :
    List (KnowledgeRow V) :=
  (s.rows base).filter fun row => row.entry.toolName = toolName && !row.entry.resolved

/-- Nothing of the tool is unresolved for the tenant, and other tools have their entries. -/
structure ResolvesTool (s : GlobalMemory) (toolName : String) (base after : KnowledgeBase V) :
    Prop where
  resolved : ∀ entryId row, after.entries.lookup entryId = some row →
    row.entry.tenant = s.tenant → row.entry.toolName = toolName → row.entry.resolved = true
  others : ∀ entryId row, row.entry.toolName ≠ toolName →
    (after.entries.lookup entryId = some row ↔ base.entries.lookup entryId = some row)

section Remember

variable {r : Retrieval V κ} {s : GlobalMemory} {base after : KnowledgeBase V}
  {agentId toolName summary : String} {modification : ToolModification} {write : FixWrite V}
  {result : MemoryResult}

theorem mem_unresolvedOf {row : KnowledgeRow V} : row ∈ unresolvedOf s base toolName ↔
    (∃ entryId, (entryId, row) ∈ base.entries) ∧ row.entry.tenant = s.tenant ∧
      row.entry.toolName = toolName ∧ row.entry.resolved = false := by
  unfold unresolvedOf GlobalMemory.rows
  simp only [List.mem_filter, List.mem_map, Prod.exists, exists_eq_right, Bool.and_eq_true,
    decide_eq_true_eq, Bool.not_eq_true', and_assoc]

theorem selected_unresolved (limit : Int) :
    s.selected r base (some toolName) none true limit =
      GlobalMemory.limitedTo limit (r.orderBy (unresolvedOf s base toolName)) := by
  unfold GlobalMemory.selected unresolvedOf
  simp [GlobalMemory.ofTool]

/-- A fix has been remembered: a resolved row was added, then the listed ones were marked. -/
structure FixSteps (r : Retrieval V κ) (s : GlobalMemory) (base after : KnowledgeBase V)
    (toolName summary : String) (write : FixWrite V) (middle : KnowledgeBase V)
    (row : KnowledgeRow V) : Prop where
  added : middle.entries = base.entries ++ [(write.entryId, row)]
  keyed : middle.Keyed
  tenant : row.entry.tenant = s.tenant
  tool : row.entry.toolName = toolName
  resolved : row.entry.resolved = true
  lookup : ∀ key, after.entries.lookup key =
    if key ∈ ((r.orderBy (unresolvedOf s middle toolName)).take 100).map
        (fun row => row.entry.entryId)
    then (middle.entries.lookup key).map (s.markOwn summary (write.now key))
    else middle.entries.lookup key

theorem rememberFix_steps (keyed : base.Keyed) (fresh : write.entryId ∉ base.entries.keys)
    (done : rememberFix r s base agentId toolName summary modification write =
      (after, some result)) :
    ∃ middle row, FixSteps r s base after toolName summary write middle row := by
  unfold rememberFix at done
  split at done
  · cases done
  · rename_i added entry wrote
    obtain ⟨ids, first, added_eq, hid, tenant, tool⟩ := GlobalMemory.addExperience_fresh fresh wrote
    obtain ⟨middle, answer, called⟩ : ∃ middle answer, s.markResolved added entry.entryId summary
        (write.now entry.entryId) = (middle, answer) := ⟨_, _, rfl⟩
    rw [called] at done
    dsimp only at done
    split at done
    · rename_i found unresolved answered listed
      obtain ⟨rfl, counted⟩ := Prod.mk.inj done
      obtain ⟨count, isCount, -⟩ := Option.map_eq_some_iff.mp counted
      have stands : s.rowOf added entry.entryId = some first := by
        have member : (entry.entryId, first) ∈ added.entries := by
          rw [added_eq, ids]
          exact List.mem_append_right _ List.mem_cons_self
        have lookup := OrderedDict.lookup_eq_some_of_mem (keyed.append fresh hid added_eq).distinct
          member
        unfold GlobalMemory.rowOf
        rw [lookup, Option.filter_some, if_pos (decide_eq_true tenant)]
      have entries : middle.entries = base.entries ++
          [(write.entryId, GlobalMemory.marked summary (write.now entry.entryId) first)] := by
        rw [GlobalMemory.entries_markResolved stands called answered, added_eq, ids]
        exact OrderedDict.assign_append_singleton fresh first
      have shown : unresolved = (s.selected r middle (some toolName) none true 100).map
          KnowledgeRow.toEntry := (KnowledgeAnswer.entries.inj listed).symm
      refine ⟨middle, _, entries, keyed.append fresh (by exact hid) entries, tenant, tool, rfl,
        fun key => ?_⟩
      rw [GlobalMemory.lookup_markEach (Prod.ext rfl isCount) key, shown, selected_unresolved,
        List.map_map]
      rfl
    · cases done

/-- Once its entry has been written nothing keeps a fix from being remembered. -/
theorem rememberFix_of_added {entry : KnowledgeEntry V} {added : KnowledgeBase V}
    (wrote : s.addExperience r base (fixEntry agentId toolName summary modification write)
      write.vector = (added, some entry)) :
    ∃ after result, rememberFix r s base agentId toolName summary modification write =
      (after, some result) := by
  obtain ⟨middle, answer, found, called, answered, free⟩ := GlobalMemory.markResolved_free
    (GlobalMemory.addExperience_free wrote) entry.entryId (write.now entry.entryId)
  obtain ⟨after, count, marked⟩ := GlobalMemory.markEach_free free
    ((s.selected r middle (some toolName) none true 100).map KnowledgeRow.toEntry)
  refine ⟨after, ⟨entry.entryId, count⟩, ?_⟩
  have listed : s.listEntries r middle (some toolName) none true 100 =
      .entries ((s.selected r middle (some toolName) none true 100).map KnowledgeRow.toEntry) :=
    if_pos (by decide)
  unfold rememberFix
  rw [wrote]
  dsimp only
  rw [called]
  dsimp only
  rw [answered, listed]
  dsimp only
  rw [marked]
  rfl

/-- An unresolved row of the tool stands under its id. -/
theorem lookup_of_mem_unresolvedOf (keyed : base.Keyed) {row : KnowledgeRow V}
    (member : row ∈ unresolvedOf s base toolName) :
    base.entries.lookup row.entry.entryId = some row := by
  obtain ⟨⟨key, stands⟩, -⟩ := mem_unresolvedOf.mp member
  have id : row.entry.entryId = key := keyed.ids (key, row) stands
  rw [id]
  exact OrderedDict.lookup_eq_some_of_mem keyed.distinct stands

theorem nodup_unresolvedOf (keyed : base.Keyed) :
    ((unresolvedOf s base toolName).map fun row => row.entry.entryId).Nodup := by
  have keys : (base.entries.map Prod.snd).map (fun row => row.entry.entryId) =
      base.entries.keys := by
    unfold OrderedDict.keys
    rw [List.map_map]
    exact List.map_congr_left keyed.ids
  have part : (unresolvedOf s base toolName).Sublist (base.entries.map Prod.snd) :=
    List.filter_sublist.trans List.filter_sublist
  exact (keys ▸ keyed.distinct).sublist (part.map _)

/-- The rows whose ids are marked are all of those that are listed. -/
theorem length_le_of_marked (keyed : base.Keyed) {listed : List (KnowledgeRow V)} {limit : Nat}
    (short : listed.length ≤ limit)
    (all : ∀ row ∈ unresolvedOf s base toolName,
      row.entry.entryId ∈ listed.map fun row => row.entry.entryId) :
    (unresolvedOf s base toolName).length ≤ limit := by
  have within := (nodup_unresolvedOf keyed).subperm fun id member => by
    obtain ⟨row, isRow, rfl⟩ := List.mem_map.mp member
    exact all row isRow
  have length := within.length_le
  rw [List.length_map, List.length_map] at length
  exact le_trans length short

namespace FixSteps

variable {middle : KnowledgeBase V} {new row : KnowledgeRow V} {key : String}

theorem unresolved_eq (steps : FixSteps r s base after toolName summary write middle new) :
    unresolvedOf s middle toolName = unresolvedOf s base toolName := by
  unfold unresolvedOf GlobalMemory.rows
  rw [steps.added]
  simp [steps.resolved]

theorem lookup_new (steps : FixSteps r s base after toolName summary write middle new) :
    middle.entries.lookup write.entryId = some new :=
  OrderedDict.lookup_eq_some_of_mem steps.keyed.distinct
    (steps.added ▸ List.mem_append_right _ List.mem_cons_self)

theorem lookup_old (steps : FixSteps r s base after toolName summary write middle new)
    (ne : key ≠ write.entryId) : middle.entries.lookup key = base.entries.lookup key := by
  rw [steps.added, List.lookup_append, List.lookup_cons, beq_false_of_ne ne]
  exact Option.or_none

/-- Only rows of the tool are marked. -/
theorem others (steps : FixSteps r s base after toolName summary write middle new)
    (ordered : ∀ rows, (r.orderBy rows).Perm rows) (fresh : write.entryId ∉ base.entries.keys)
    (other : row.entry.toolName ≠ toolName) :
    after.entries.lookup key = some row ↔ base.entries.lookup key = some row := by
  have apart : middle.entries.lookup key = some row ↔ base.entries.lookup key = some row := by
    by_cases first : key = write.entryId
    · rw [first, steps.lookup_new, OrderedDict.lookup_eq_none_iff.mpr fresh]
      exact iff_of_false (fun same => other (Option.some.inj same ▸ steps.tool)) nofun
    · rw [steps.lookup_old first]
  rw [← apart, steps.lookup]
  split
  · rename_i marks
    obtain ⟨listed, isListed, rfl⟩ := List.mem_map.mp marks
    have member := (ordered _).mem_iff.mp (List.mem_of_mem_take isListed)
    have named := (mem_unresolvedOf.mp member).2.2.1
    rw [lookup_of_mem_unresolvedOf steps.keyed member, Option.map_some]
    refine iff_of_false (fun same => other ?_) (fun same => other (Option.some.inj same ▸ named))
    rw [← Option.some.inj same, GlobalMemory.toolName_markOwn, named]
  · rfl

/-- An unresolved row that is not listed is left. -/
theorem resolved_of_listed (steps : FixSteps r s base after toolName summary write middle new)
    (all : ∀ row ∈ unresolvedOf s middle toolName,
      row ∈ (r.orderBy (unresolvedOf s middle toolName)).take 100)
    (found : after.entries.lookup key = some row) (own : row.entry.tenant = s.tenant)
    (named : row.entry.toolName = toolName) : row.entry.resolved = true := by
  rw [steps.lookup] at found
  split at found
  · obtain ⟨before, -, rfl⟩ := Option.map_eq_some_iff.mp found
    rw [GlobalMemory.tenant_markOwn] at own
    rw [GlobalMemory.markOwn_of_tenant own]
    rfl
  · rename_i unmarked
    by_contra unresolved
    have stands := OrderedDict.mem_of_lookup found
    have member : row ∈ unresolvedOf s middle toolName :=
      mem_unresolvedOf.mpr ⟨⟨key, stands⟩, own, named, Bool.eq_false_iff.mpr unresolved⟩
    have id : row.entry.entryId = key := steps.keyed.ids (key, row) stands
    exact unmarked (id ▸ List.mem_map_of_mem (all row member))

end FixSteps

/-- The tool is resolved if and only if the listing has room for all of its unresolved rows. -/
theorem resolvesTool_iff (ordered : ∀ rows, (r.orderBy rows).Perm rows)
    (keyed : base.Keyed) (fresh : write.entryId ∉ base.entries.keys)
    (done : rememberFix r s base agentId toolName summary modification write =
      (after, some result)) :
    ResolvesTool s toolName base after ↔ (unresolvedOf s base toolName).length ≤ 100 := by
  obtain ⟨middle, new, steps⟩ := rememberFix_steps keyed fresh done
  rw [← steps.unresolved_eq]
  constructor
  · rintro ⟨all, -⟩
    refine length_le_of_marked steps.keyed (List.length_take_le 100
      (r.orderBy (unresolvedOf s middle toolName))) fun row member => ?_
    by_contra unmarked
    obtain ⟨-, own, named, unresolved⟩ := mem_unresolvedOf.mp member
    have left := steps.lookup row.entry.entryId
    rw [if_neg unmarked, lookup_of_mem_unresolvedOf steps.keyed member] at left
    rw [all _ row left own named] at unresolved
    cases unresolved
  · intro short
    refine ⟨fun key row => steps.resolved_of_listed fun row member => ?_,
      fun key row => steps.others ordered fresh⟩
    rw [List.take_of_length_le ((ordered _).length_eq.trans_le short)]
    exact (ordered _).mem_iff.mpr member

end Remember

/-- A persisted fix resolves the tool exactly where at most a hundred of its entries were not
resolved; the entries of other tools it keeps in any case. -/
theorem persistFix_resolves_iff (r : Retrieval V κ) (ordered : ∀ rows, (r.orderBy rows).Perm rows)
    (cut : PyVal → Nat → Except Fault String) (s : GlobalMemory) (base : KnowledgeBase V)
    (keyed : base.Keyed) (agentId toolName : String) (modification : ToolModification)
    (write : FixWrite V) (fresh : write.entryId ∉ base.entries.keys) {after : KnowledgeBase V}
    {result : MemoryResult}
    (persisted : persistFixToMemory r cut (some s) base agentId toolName modification write =
      (after, some result)) :
    ResolvesTool s toolName base after ↔ (unresolvedOf s base toolName).length ≤ 100 := by
  unfold persistFixToMemory at persisted
  cases made : fixSummary cut toolName modification with
  | error fault =>
      rw [made] at persisted
      cases persisted
  | ok summary =>
      rw [made] at persisted
      exact resolvesTool_iff ordered keyed fresh persisted

/-! ## A hundred entries and one more -/

def crowdRow (updatedAt n : Nat) : String × KnowledgeRow Int :=
  (String.ofList (List.replicate n 'e'),
    { entry :=
        { entryId := String.ofList (List.replicate n 'e'), toolName := "search", tenant := "t"
          createdAt := 0, updatedAt := updatedAt } })

/-- So many unresolved entries of a tool, the newest first. -/
def crowd (count : Nat) : KnowledgeBase Int where
  entries := (List.range count).map fun n => crowdRow (count - n) n

theorem keyed_crowd (count : Nat) : (crowd count).Keyed where
  distinct := by
    have apart : Function.Injective fun n => (crowdRow (count - n) n).1 := by
      intro first second same
      simpa [crowdRow] using congrArg String.length same
    have keys : (crowd count).entries.keys =
        (List.range count).map fun n => (crowdRow (count - n) n).1 := List.map_map
    exact keys ▸ List.nodup_range.map apart
  ids := by
    intro entry member
    obtain ⟨n, -, rfl⟩ := List.mem_map.mp member
    rfl

def searchFix : ToolModification where
  toolName := "search"
  reporterAgentId := "agent"
  issueType := .unclearDescription
  oldDescription := .str "Search."
  newDescription := .str "Search the web."
  timestamp := ""

def fixWrite : FixWrite Int := ⟨"fix", .ok 0, 200, fun _ => 201⟩

def cutText : PyVal → Nat → Except Fault String
  | .str text, count => .ok (Mcp.slice text count)
  | _, _ => .error (.exception "")

/-- The fix of a tool for one tenant. -/
def persistCrowd (count : Nat) : KnowledgeBase Int × Option MemoryResult :=
  persistFixToMemory GlobalMemory.onLine cutText (some GlobalMemory.ofTenantT) (crowd count)
    "guardian" "search" searchFix fixWrite

theorem fresh_crowd (count : Nat) : fixWrite.entryId ∉ (crowd count).entries.keys := by
  intro member
  obtain ⟨entry, isEntry, id⟩ := List.mem_map.mp member
  obtain ⟨n, -, rfl⟩ := List.mem_map.mp isEntry
  have first : 'f' ∈ List.replicate n 'e' := by
    have spelled : List.replicate n 'e' = "fix".toList := by
      rw [← String.toList_ofList (l := List.replicate n 'e')]
      exact congrArg String.toList id
    rw [spelled]
    decide
  exact absurd (List.eq_of_mem_replicate first) (by decide)

/-- The entries of a hundred and one that the listing leaves out stay unresolved. -/
theorem not_resolvesTool_crowd : ∃ after result, persistCrowd 101 = (after, some result) ∧
    ¬ResolvesTool GlobalMemory.ofTenantT "search" (crowd 101) after := by
  have wrote : (GlobalMemory.addExperience GlobalMemory.onLine GlobalMemory.ofTenantT (crowd 101)
      (fixEntry "guardian" "search" "ToolGuardian 修复 'search' 描述: Search the web." searchFix
        fixWrite) fixWrite.vector).2.isSome := by
    decide +kernel
  obtain ⟨entry, isEntry⟩ := Option.isSome_iff_exists.mp wrote
  obtain ⟨after, result, done⟩ := rememberFix_of_added (Prod.ext rfl isEntry)
  refine ⟨after, result, done, fun resolves => ?_⟩
  have short := (resolvesTool_iff (fun rows => .refl rows) (keyed_crowd 101) (fresh_crowd 101)
    done).mp resolves
  have many : (unresolvedOf GlobalMemory.ofTenantT (crowd 101) "search").length = 101 := by
    decide +kernel
  omega

theorem persistFix_resolves_iff_two :
    ResolvesTool GlobalMemory.ofTenantT "search" (crowd 2) (persistCrowd 2).1 ↔
      (unresolvedOf GlobalMemory.ofTenantT (crowd 2) "search").length ≤ 100 :=
  persistFix_resolves_iff GlobalMemory.onLine (fun rows => .refl rows) cutText
    GlobalMemory.ofTenantT (crowd 2) (keyed_crowd 2) "guardian" "search" searchFix fixWrite
    (fresh_crowd 2) rfl

end YouMi.Coordinator
