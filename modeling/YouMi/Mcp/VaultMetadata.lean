import YouMi.Library.Runs
import YouMi.Mcp.Bridge
import YouMi.Mcp.VaultVersions

/-!
# Risk and permissions in the vault

An entry repeats the risk and the permissions of its definition, and the candidate for
the gate repeats them once more.  `add_tool` copies both from the definition;
`add_tools_from_provider` leaves them at their defaults.
-/

namespace YouMi.Mcp

open YouMi.Core YouMi.Library YouMi.Mcp.ToolStore ToolVault

variable {V : Type}

/-- The ways a tool is registered, for the first time or again. -/
inductive Registration (V : Type) where
  | addTool (entry : VaultEntry V)
  | addToolsFromProvider (provider : Provider) (essentialNames : Option (List String))
      (origin : Option String)

def Registration.operation : Registration V → Operation V
  | .addTool entry => .addTool entry
  | .addToolsFromProvider provider essentialNames origin =>
      .addToolsFromProvider provider essentialNames origin

def ToolVault.register (vault : ToolVault V) (action : VaultEnv V × Registration V) :
    ToolVault V :=
  vault.step (action.1, action.2.operation)

/-- What is said of a tool is what its definition says. -/
def Repeats (definition : ToolDefinition) (riskLevel : String)
    (requiredPermissions : List String) : Prop :=
  riskLevel = definition.riskLevel ∧ requiredPermissions = definition.requiredPermissions

/-- The entries and the candidates repeat their definitions, and a tool whose definition is
above the threshold of a gate is not activated by a load. -/
structure MetadataAgrees (vault : ToolVault V) : Prop where
  entries : ∀ name entry, vault.entries.lookup name = some entry →
    Repeats entry.definition entry.riskLevel entry.requiredPermissions
  candidates : ∀ name entry, vault.entries.lookup name = some entry →
    Repeats entry.definition (auditCandidate (some vault) name).riskLevel
      (auditCandidate (some vault) name).requiredPermissions
  guarded : ∀ name entry, vault.entries.lookup name = some entry →
    ∀ gate : AuditGate, AboveThreshold gate.riskThreshold entry.definition.riskLevel →
      ∀ (bridge : ToolBridge V) (listTools : Option (List String)) (freshId : String),
        (bridge.loadDiscoveredTool (some vault) (some gate) listTools freshId
          name).report.activates = false

/-- What a provider brings is harmless: of low risk and open to everybody. -/
def BringsHarmless (_ : ToolVault V) (action : VaultEnv V × Registration V) : Prop :=
  match action.2 with
  | .addTool _ => True
  | .addToolsFromProvider provider _ _ =>
      ∀ item ∈ provider.definitions,
        item.2.riskLevel = "low" ∧ item.2.requiredPermissions = []

variable {vault : ToolVault V}

/-- An entry repeats its definition. -/
def VaultEntry.Faithful (entry : VaultEntry V) : Prop :=
  Repeats entry.definition entry.riskLevel entry.requiredPermissions

theorem auditCandidate_of_lookup {name : String} {entry : VaultEntry V}
    (found : vault.entries.lookup name = some entry) :
    (auditCandidate (some vault) name).riskLevel = entry.riskLevel ∧
      (auditCandidate (some vault) name).requiredPermissions = entry.requiredPermissions := by
  unfold auditCandidate entryOf
  rw [Option.bind_some, found]
  exact ⟨rfl, rfl⟩

/-- The entries decide: candidates and gates follow them. -/
theorem metadataAgrees_iff :
    MetadataAgrees vault ↔
      ∀ name entry, vault.entries.lookup name = some entry → entry.Faithful := by
  constructor
  · exact fun agrees => agrees.entries
  · intro faithful
    refine ⟨faithful, ?_, ?_⟩
    · intro name entry found
      obtain ⟨risk, permissions⟩ := auditCandidate_of_lookup found
      rw [risk, permissions]
      exact faithful name entry found
    · intro name entry found gate above bridge listTools freshId
      rw [← (faithful name entry found).1, ← (auditCandidate_of_lookup found).1] at above
      exact ToolBridge.not_activates_of_aboveThreshold above listTools freshId bridge

/-- A vector makes no difference. -/
theorem faithful_of_bare {entry other : VaultEntry V} (same : entry.bare = other.bare) :
    entry.Faithful ↔ other.Faithful := by
  have definition : entry.definition = other.definition := congrArg (·.definition) same
  have risk : entry.riskLevel = other.riskLevel := congrArg (·.riskLevel) same
  have permissions : entry.requiredPermissions = other.requiredPermissions :=
    congrArg (·.requiredPermissions) same
  unfold VaultEntry.Faithful
  rw [definition, risk, permissions]

theorem metadataAgrees_addTool (agrees : MetadataAgrees vault) (env : VaultEnv V)
    (entry : VaultEntry V) : MetadataAgrees (addTool env entry vault) := by
  rw [metadataAgrees_iff] at agrees ⊢
  intro name after found
  have bare := sameButVectors_addTool env entry vault name
  rw [found, OrderedDict.lookup_assign] at bare
  split at bare
  · rw [faithful_of_bare (Option.some.inj bare)]
    exact ⟨rfl, rfl⟩
  · obtain ⟨before, was, same⟩ := Option.map_eq_some_iff.mp bare.symm
    rw [← faithful_of_bare same]
    exact agrees name before was

/-- An import keeps the agreement exactly if what it brings is harmless. -/
theorem metadataAgrees_import_iff (agrees : MetadataAgrees vault) (env : VaultEnv V)
    (provider : Provider) (essentialNames : Option (List String)) (origin : Option String) :
    MetadataAgrees (addToolsFromProvider env provider essentialNames origin vault) ↔
      ∀ item ∈ provider.definitions,
        item.2.riskLevel = "low" ∧ item.2.requiredPermissions = [] := by
  have lookups := lookup_importedEntries env provider essentialNames origin vault
  rw [metadataAgrees_iff] at agrees ⊢
  constructor
  · intro faithful item member
    obtain ⟨name, defn⟩ := item
    have bare := lookups name
    rw [OrderedDict.lookup_eq_some_of_mem provider.distinct member] at bare
    obtain ⟨after, found, same⟩ := Option.map_eq_some_iff.mp bare
    have repeats := faithful name after found
    rw [faithful_of_bare (same.trans (bare_providedEntry ..).symm)] at repeats
    exact ⟨repeats.1.symm, repeats.2.symm⟩
  · intro harmless name after found
    have bare := lookups name
    have there : (importedEntries env provider essentialNames origin vault).lookup name =
      some after := found
    rw [there] at bare
    cases given : provider.definitions.lookup name with
    | some defn =>
        obtain ⟨risk, permissions⟩ := harmless _ (OrderedDict.mem_of_lookup given)
        rw [given] at bare
        rw [faithful_of_bare ((Option.some.inj bare).trans (bare_providedEntry ..).symm)]
        exact ⟨risk.symm, permissions.symm⟩
    | none =>
        rw [given] at bare
        obtain ⟨before, was, same⟩ := Option.map_eq_some_iff.mp bare.symm
        rw [← faithful_of_bare same]
        exact agrees name before was

theorem metadataAgrees_register_iff (vault : ToolVault V) (action : VaultEnv V × Registration V)
    (agrees : MetadataAgrees vault) :
    MetadataAgrees (vault.register action) ↔ BringsHarmless vault action := by
  obtain ⟨env, registration⟩ := action
  cases registration with
  | addTool entry => exact iff_of_true (metadataAgrees_addTool agrees env entry) trivial
  | addToolsFromProvider provider essentialNames origin =>
      exact metadataAgrees_import_iff agrees env provider essentialNames origin

/-- Risk and permissions of the entries and the candidates are those of the definitions,
and gates hold back what is too risky, throughout exactly the runs in which providers bring
harmless tools only. -/
theorem vault_metadata_iff (store : StoreState V)
    (actions : List (VaultEnv V × Registration V)) :
    Throughout ToolVault.register MetadataAgrees (ToolVault.empty store) actions ↔
      StepsMeet ToolVault.register BringsHarmless (ToolVault.empty store) actions := by
  have init : MetadataAgrees (ToolVault.empty store) :=
    metadataAgrees_iff.mpr fun name entry found => nomatch found
  exact throughout_iff_stepsMeet (fun _ => True) MetadataAgrees (fun _ _ _ => trivial)
    (fun vault action _ agrees => metadataAgrees_register_iff vault action agrees)
    trivial init actions

/-- A provider with one critical tool. -/
def criticalProvider : Provider where
  providerId := "p"
  origin := "generated"
  definitions := [("tool", { plainDefinition "" with riskLevel := "critical" })]
  distinct := List.nodup_singleton _

/-- The critical tool of a provider enters the vault as one of low risk. -/
theorem imported_tool_counts_as_low :
    ¬Throughout ToolVault.register MetadataAgrees (ToolVault.empty (StoreState.empty none))
      [(⟨none, fun _ => atTime 0⟩, .addToolsFromProvider criticalProvider none none)] := by
  intro always
  have lowered := (always 1).entries "tool"
    (providedEntry "p" .generated none "tool"
      { plainDefinition "" with riskLevel := "critical" }) (by rfl)
  exact absurd lowered.1 (by decide)

end YouMi.Mcp
