import YouMi.Mcp.ToolStore.WellFormed

/-!
# Reading back what was registered

`upsert_tool` writes an entry into columns, and `get_tool` makes an entry of them again.
A row that is there already is overwritten in some of its columns only; and the risk
level, the permissions and the language of a row are those of the definition.
-/

namespace YouMi.Mcp.ToolStore

open YouMi.Core YouMi.Library

variable {V : Type}

def originText : ToolOrigin → String
  | .external => "external"
  | .generated => "generated"

/-- The entry that is read is the one that was given, with the defaults filled in. -/
structure ReadsBack (given read : ToolEntry V) : Prop where
  definition : read.definition = given.definition
  summary : read.summary = orElse given.summary (slice given.definition.description 80)
  providerId : read.providerId = given.providerId
  language : read.language = given.language
  essential : read.essential = given.essential
  riskLevel : read.riskLevel = orElse given.riskLevel "low"
  requiredPermissions : read.requiredPermissions = given.requiredPermissions
  lineageId : read.lineageId = orElse given.lineageId given.toolName
  origin : read.origin = originText (normalizeOrigin (some given.origin))

/-- After an upsert that returns, its entry is read back. -/
def RoundTrip (env : Env V) (entry : ToolEntry V) (s : StoreState V) : Prop :=
  ∀ toolId next, upsertTool env entry s = (.ok toolId, next) →
    ∃ row, getTool next.tools.rows entry.toolName (resolvedVersion entry) = some row ∧
      ReadsBack entry (rowToEntry next row)

/-- What a second upsert leaves of a row is as the entry has it. -/
structure KeptAsGiven (entry : ToolEntry V) (old : ToolRow) : Prop where
  providerId : old.providerId = entry.providerId
  language : old.language = entry.language
  essential : old.essential = entry.essential
  origin : old.origin = normalizeOrigin (some entry.origin)

/-- The entry says of the risk and the permissions what its definition says. -/
def InStep (entry : ToolEntry V) : Prop :=
  orElse entry.definition.riskLevel "low" = orElse entry.riskLevel "low" ∧
    entry.definition.requiredPermissions = entry.requiredPermissions

/-- The upsert raises, or writes whatever it does not take from the row that is there. -/
def WritesAll (s : StoreState V) (entry : ToolEntry V) : Prop :=
  VectorRefused s entry ∨
    InStep entry ∧
      match rowById s.tools.rows (mainToolId entry.toolName (resolvedVersion entry)) with
      | none => entry.definition.language = entry.language
      | some old => KeptAsGiven entry old

/-- The row that is there after an upsert: the new one, or the old one overwritten. -/
def writtenRow (env : Env V) (entry : ToolEntry V) (s : StoreState V) : ToolRow :=
  match rowById s.tools.rows (mainToolId entry.toolName (resolvedVersion entry)) with
  | none => stored s.tools (upsertRow env entry s.tools.rows)
  | some old => overwrite (upsertRow env entry s.tools.rows) old

/-! ## The row that is read -/

theorem originText_injective {first second : ToolOrigin}
    (same : originText first = originText second) : first = second := by
  cases first <;> cases second <;> first | rfl | exact absurd same (by decide)

theorem rowToEntry_origin (s : StoreState V) (row : ToolRow) :
    (rowToEntry s row).origin = originText row.origin := by
  unfold rowToEntry originText
  cases row.origin <;> rfl

theorem resolvedVersion_valid (entry : ToolEntry V) :
    isValidSemver (resolvedVersion entry) = true :=
  isValidSemver_resolveInitialVersion _ _

theorem getTool_of_valid {rows : List ToolRow} {toolName version : String}
    (valid : isValidSemver version = true) :
    getTool rows toolName version = rowById rows (mainToolId toolName version) := by
  refine if_pos ?_
  rintro rfl
  cases valid

section Read

variable {env : Env V} {entry : ToolEntry V} {s : StoreState V}

theorem rowById_upsertInto :
    rowById (upsertInto s.tools (upsertRow env entry s.tools.rows)).rows
      (mainToolId entry.toolName (resolvedVersion entry)) = some (writtenRow env entry s) := by
  unfold writtenRow
  rcases upsertInto_rows s.tools (upsertRow env entry s.tools.rows) with
    ⟨rows, fresh⟩ | ⟨rows, old, member, isId⟩
  · have absent : rowById s.tools.rows (mainToolId entry.toolName (resolvedVersion entry)) =
        none := rowById_eq_none_iff.mpr fresh.toolId
    have still : rowById (s.tools.rows.map
        (makeRoom (stored s.tools (upsertRow env entry s.tools.rows))))
          (mainToolId entry.toolName (resolvedVersion entry)) = none := by
      rw [(makeRoom_keepsPlace _).rowById, absent]
      rfl
    rw [rows, absent, rowById, List.find?_append, ← rowById, still, Option.none_or]
    exact List.find?_cons_of_pos (decide_eq_true rfl)
  · rw [rows, (reupsert_keepsPlace _).rowById]
    cases found : rowById s.tools.rows (mainToolId entry.toolName (resolvedVersion entry)) with
    | none => exact absurd isId (rowById_eq_none_iff.mp found old member)
    | some old =>
        have same : old.toolId = (upsertRow env entry s.tools.rows).toolId := (rowById_mem found).2
        rw [Option.map_some, reupsert, if_pos same]

theorem readsBack_stored_iff {next : StoreState V} :
    ReadsBack entry (rowToEntry next (stored s.tools (upsertRow env entry s.tools.rows))) ↔
      InStep entry ∧ entry.definition.language = entry.language := by
  constructor
  · intro reads
    have risk : orElse (orElse entry.definition.riskLevel "low") "low" =
      orElse entry.riskLevel "low" := reads.riskLevel
    rw [orElse_orElse] at risk
    exact ⟨⟨risk, reads.requiredPermissions⟩, reads.language⟩
  · rintro ⟨⟨risk, permissions⟩, language⟩
    refine ⟨rfl, orElse_orElse _ _, rfl, language, rfl, ?_, permissions, orElse_orElse _ _, ?_⟩
    · exact (orElse_orElse _ _).trans risk
    · exact rowToEntry_origin _ _

theorem readsBack_overwrite_iff {next : StoreState V} {old : ToolRow}
    (same : old.toolId = (upsertRow env entry s.tools.rows).toolId)
    (name : old.toolName = entry.toolName) :
    ReadsBack entry (rowToEntry next (overwrite (upsertRow env entry s.tools.rows) old)) ↔
      InStep entry ∧ KeptAsGiven entry old := by
  rw [overwrite, if_pos same]
  constructor
  · intro reads
    have risk : orElse (orElse entry.definition.riskLevel "low") "low" =
      orElse entry.riskLevel "low" := reads.riskLevel
    rw [orElse_orElse] at risk
    have origin := reads.origin
    rw [rowToEntry_origin] at origin
    exact ⟨⟨risk, reads.requiredPermissions⟩,
      ⟨reads.providerId, reads.language, reads.essential, originText_injective origin⟩⟩
  · rintro ⟨⟨risk, permissions⟩, provider, language, essential, origin⟩
    refine ⟨rfl, orElse_orElse _ _, provider, language, essential, ?_, permissions, ?_, ?_⟩
    · exact (orElse_orElse _ _).trans risk
    · change orElse (orElse entry.lineageId entry.toolName) old.toolName = _
      rw [name, orElse_orElse]
    · exact (rowToEntry_origin _ _).trans (congrArg originText origin)

theorem readsBack_writtenRow_iff (env : Env V) (next : StoreState V)
    (wellFormed : WellFormed s.tools.rows) (accepted : ¬ VectorRefused s entry) :
    ReadsBack entry (rowToEntry next (writtenRow env entry s)) ↔ WritesAll s entry := by
  unfold WritesAll writtenRow
  rw [or_iff_right accepted]
  cases found : rowById s.tools.rows (mainToolId entry.toolName (resolvedVersion entry)) with
  | none => exact readsBack_stored_iff
  | some old =>
      obtain ⟨member, isId⟩ := rowById_mem found
      have isMain : old.toolId = toolIdOn entry.toolName "main" (resolvedVersion entry) :=
        isId.trans (toolIdOn_main _ _).symm
      have on := wellFormed.on_of_toolId member legalBranch_main (resolvedVersion_valid entry)
        isMain
      exact readsBack_overwrite_iff isId on.1.1

/-- An upsert makes a round trip exactly if it raises or writes all. -/
theorem roundTrip_iff_writesAll (wellFormed : WellFormed s.tools.rows) :
    RoundTrip env entry s ↔ WritesAll s entry := by
  rcases upsertTool_cases env entry s with ⟨refused, raises⟩ | ⟨accepted, next, returns, tools⟩
  · refine iff_of_true (fun toolId next returns => ?_) (.inl refused)
    rw [raises] at returns
    cases returns
  · have reads : getTool next.tools.rows entry.toolName (resolvedVersion entry) =
        some (writtenRow env entry s) := by
      rw [getTool_of_valid (resolvedVersion_valid entry), tools]
      exact rowById_upsertInto
    rw [← readsBack_writtenRow_iff env next wellFormed accepted]
    constructor
    · intro trip
      obtain ⟨row, found, back⟩ := trip _ next returns
      rwa [Option.some.inj (reads.symm.trans found)]
    · intro back toolId last other
      obtain ⟨_, rfl⟩ := Prod.mk.inj (returns.symm.trans other)
      exact ⟨_, reads, back⟩

end Read

/-- In every reachable state an entry is read back exactly if the upsert writes all of it. -/
theorem roundTrip_iff (vecExtension : Option (VecExtension V)) (actions : List (Env V × Call V))
    (env : Env V) (entry : ToolEntry V) :
    RoundTrip env entry (run step (StoreState.empty vecExtension) actions) ↔
      WritesAll (run step (StoreState.empty vecExtension) actions) entry :=
  roundTrip_iff_writesAll (reachableState_run vecExtension actions).wellFormed

/-- The same tool from another provider. -/
def otherProvider : ToolEntry Unit := { plainEntry "1.0.0" with providerId := "other" }

/-- The row of the first provider keeps its name. -/
theorem not_roundTrip_otherProvider :
    ¬ RoundTrip (atTime 2) otherProvider
      (run step (StoreState.empty none) [(atTime 1, .upsertTool (plainEntry "1.0.0"))]) := by
  intro trip
  obtain ⟨row, found, reads⟩ := trip _ _ rfl
  obtain rfl := Option.some.inj found
  exact absurd reads.providerId (by decide)

end YouMi.Mcp.ToolStore
