import YouMi.Mcp.ToolStore.Heads
import YouMi.Mcp.Vault

/-!
# The vault and the heads of the store

The store does not let a lower version take the head of `main`, but the vault keeps
whatever is registered last.  So the vault falls behind the store exactly when a
version below the store's head is registered.
-/

namespace YouMi.Mcp

open YouMi.Core YouMi.Library YouMi.Mcp.ToolStore

variable {V : Type}

/-! ## What an upsert does to the heads -/

/-- The version of the tool's head of `main`. -/
def headVersion (s : StoreState V) (toolName : String) : Option String :=
  (flaggedHead s.tools.rows toolName).map ToolRow.version

section HeadVersion

variable {s : StoreState V} (wellFormed : WellFormed s.tools.rows)

include wellFormed

theorem headVersion_eq_some_iff {toolName version : String} :
    headVersion s toolName = some version ↔
      ∃ row ∈ s.tools.rows, row.On toolName "main" ∧ row.isHead = true ∧ row.version = version := by
  unfold headVersion
  rw [Option.map_eq_some_iff]
  constructor
  · rintro ⟨row, found, same⟩
    obtain ⟨member, on, flag⟩ := wellFormed.flaggedHead_eq_some_iff.mp found
    exact ⟨row, member, on, flag, same⟩
  · rintro ⟨row, member, on, flag, same⟩
    exact ⟨row, wellFormed.flaggedHead_eq_some_iff.mpr ⟨member, on, flag⟩, same⟩

/-- A head that the upserted row does not displace is there afterwards. -/
theorem head_stays_upsert {env : Env V} {entry : ToolEntry V} {row : ToolRow}
    (member : row ∈ s.tools.rows)
    (undisturbed : row.toolName = entry.toolName →
      (upsertRow env entry s.tools.rows).isHead = false ∧ row.version ≠ resolvedVersion entry) :
    row ∈ (upsertTool env entry s).2.tools.rows := by
  have kept (new : ToolRow) (sameTool : new.toolName = entry.toolName)
      (sameHead : new.isHead = (upsertRow env entry s.tools.rows).isHead) :
      makeRoom new row = row := by
    unfold makeRoom
    split
    · rename_i isHead
      refine demote_of_not_on fun same => ?_
      rw [sameHead, (undisturbed (same.1.trans sameTool)).1] at isHead
      cases isHead
    · rfl
  generalize isNext : (upsertTool env entry s).2.tools.rows = next
  have after := upsertTool_rows env entry s
  rw [isNext] at after
  cases after with
  | same => exact member
  | @insert _ new isNew fresh =>
      have planned := (makes_of_newRow isNew).1
      cases planned with
      | upsert =>
          refine List.mem_append_left _ (List.mem_map.mpr ⟨row, member, ?_⟩)
          exact kept _ rfl rfl
      | version commits => cases commits
      | promotion promotes => cases promotes
  | reupsert accepted taken =>
      refine List.mem_map.mpr ⟨row, member, ?_⟩
      have other : row.toolId ≠ (upsertRow env entry s.tools.rows).toolId := by
        intro same
        obtain ⟨here, version⟩ := wellFormed.on_of_toolId member legalBranch_main
          (isValidSemver_resolveInitialVersion _ _)
          (same.trans (toolIdOn_main entry.toolName (resolvedVersion entry)).symm)
        exact (undisturbed here.1).2 version
      unfold reupsert
      rw [if_neg other]
      exact kept _ rfl rfl

/-- A head after an upsert was the head before, or has the version that is upserted. -/
theorem headVersion_of_upsert {env : Env V} {entry : ToolEntry V} {toolName version : String}
    (found : headVersion (upsertTool env entry s).2 toolName = some version) :
    headVersion s toolName = some version ∨
      toolName = entry.toolName ∧ version = resolvedVersion entry := by
  have after : WellFormed (upsertTool env entry s).2.tools.rows :=
    step_wellFormed s (env, .upsertTool entry) wellFormed
  obtain ⟨row, member, on, flag, rfl⟩ := (headVersion_eq_some_iff after).mp found
  rcases (upsertTool_rows env entry s).fromOld_or_new member with
    ⟨old, here, fromOld⟩ | ⟨new, isNew, rfl⟩
  · refine .inl ((headVersion_eq_some_iff wellFormed).mpr ⟨old, here, ?_⟩)
    exact ⟨(fromOld.on _ _).mp on, fromOld.isHead flag, fromOld.version.symm⟩
  · have planned := (makes_of_newRow isNew).1
    cases planned with
    | upsert => exact .inr ⟨on.1.symm, rfl⟩
    | version commits => cases commits
    | promotion promotes => cases promotes

/-- Other tools keep their heads. -/
theorem headVersion_upsert_other {env : Env V} {entry : ToolEntry V} {toolName : String}
    (other : toolName ≠ entry.toolName) :
    headVersion (upsertTool env entry s).2 toolName = headVersion s toolName := by
  have after : WellFormed (upsertTool env entry s).2.tools.rows :=
    step_wellFormed s (env, .upsertTool entry) wellFormed
  refine Option.ext fun version => ?_
  constructor
  · intro found
    exact (headVersion_of_upsert wellFormed found).resolve_right fun same => other same.1
  · intro found
    obtain ⟨row, member, on, flag, rfl⟩ := (headVersion_eq_some_iff wellFormed).mp found
    have stays : row ∈ (upsertTool env entry s).2.tools.rows :=
      head_stays_upsert wellFormed member fun same => absurd (on.1.symm.trans same) other
    exact (headVersion_eq_some_iff after).mpr ⟨row, stays, on, flag, rfl⟩

/-- A head above the upserted version stays the head. -/
theorem headVersion_upsert_below {env : Env V} {entry : ToolEntry V} {version : String}
    (found : headVersion s entry.toolName = some version)
    (below : compareVersions (resolvedVersion entry) version < 0) :
    headVersion (upsertTool env entry s).2 entry.toolName = some version := by
  have after : WellFormed (upsertTool env entry s).2.tools.rows :=
    step_wellFormed s (env, .upsertTool entry) wellFormed
  obtain ⟨row, isHead, rfl⟩ := Option.map_eq_some_iff.mp found
  obtain ⟨member, on, flag⟩ := wellFormed.flaggedHead_eq_some_iff.mp isHead
  have above : 0 < compareVersions row.version (resolvedVersion entry) :=
    compareVersions_pos_iff.mpr (compareVersions_neg_iff.mp below)
  have nonempty : row.version ≠ "" := by
    intro empty
    have valid := (wellFormed.each row member).version
    rw [empty] at valid
    exact absurd valid (by decide)
  have passed : (upsertRow env entry s.tools.rows).isHead = false := by
    change takesHead (flaggedHead s.tools.rows entry.toolName) (resolvedVersion entry) = false
    rw [isHead]
    simp [takesHead, nonempty, above]
  have different : row.version ≠ resolvedVersion entry := by
    intro same
    rw [same, compareVersions_self] at above
    exact absurd above (by decide)
  have stays : row ∈ (upsertTool env entry s).2.tools.rows :=
    head_stays_upsert wellFormed member fun _ => ⟨passed, different⟩
  exact (headVersion_eq_some_iff after).mpr ⟨row, stays, on, flag, rfl⟩

end HeadVersion

/-! ## What the vault keeps of an entry -/

/-- The entry without its vector. -/
def VaultEntry.bare (entry : VaultEntry V) : VaultEntry V := { entry with embedding := none }

/-- The dictionaries differ in vectors alone. -/
def SameButVectors (entries entries' : OrderedDict String (VaultEntry V)) : Prop :=
  ∀ name, (entries'.lookup name).map VaultEntry.bare = (entries.lookup name).map VaultEntry.bare

theorem SameButVectors.refl (entries : OrderedDict String (VaultEntry V)) :
    SameButVectors entries entries := fun _ => rfl

theorem SameButVectors.trans {first second third : OrderedDict String (VaultEntry V)}
    (here : SameButVectors first second) (there : SameButVectors second third) :
    SameButVectors first third := fun name => (there name).trans (here name)

theorem SameButVectors.version {entries entries' : OrderedDict String (VaultEntry V)}
    (same : SameButVectors entries entries') (name : String) :
    (entries'.lookup name).map (fun entry => entry.version) =
      (entries.lookup name).map fun entry => entry.version := by
  have bare := congrArg (Option.map fun entry => entry.version) (same name)
  rw [Option.map_map, Option.map_map] at bare
  exact bare

theorem sameButVectors_assign {entries : OrderedDict String (VaultEntry V)} {name : String}
    {entry : VaultEntry V} (found : entries.lookup name = some entry) (vec : V) :
    SameButVectors entries (entries.assign name { entry with embedding := some vec }) := by
  intro other
  rw [OrderedDict.lookup_assign]
  split
  · rename_i same
    rw [same, found]
    rfl
  · rfl

namespace ToolVault

theorem sameButVectors_generateEmbedding (client : EmbeddingClient V) (toolName : String)
    (entries : OrderedDict String (VaultEntry V)) :
    SameButVectors entries (generateEmbedding client toolName entries) := by
  unfold generateEmbedding
  split
  · exact .refl entries
  · rename_i found
    split
    · exact .refl entries
    · split
      · exact .refl entries
      · exact sameButVectors_assign found _

theorem sameButVectors_assignEmbeddings (vectors : List (String × V))
    (entries : OrderedDict String (VaultEntry V)) :
    SameButVectors entries (assignEmbeddings entries vectors) := by
  induction vectors generalizing entries with
  | nil => exact .refl entries
  | cons item rest ih =>
      unfold assignEmbeddings
      split
      · exact ih entries
      · rename_i found
        exact (sameButVectors_assign found _).trans (ih _)

theorem sameButVectors_buildEmbeddings (client : EmbeddingClient V)
    (entries : OrderedDict String (VaultEntry V)) :
    SameButVectors entries (buildEmbeddings client entries) := by
  unfold buildEmbeddings
  dsimp only
  split
  · exact .refl entries
  · split
    · exact .refl entries
    · exact sameButVectors_assignEmbeddings _ entries

/-! ## Registering -/

/-- Several entries written to the store in order. -/
def writeAll (writes : List (Env V × ToolEntry V)) (s : StoreState V) : StoreState V :=
  writes.foldl (fun s write => persist write.1 write.2 s) s

theorem wellFormed_writeAll (writes : List (Env V × ToolEntry V)) {s : StoreState V}
    (wellFormed : WellFormed s.tools.rows) : WellFormed (writeAll writes s).tools.rows := by
  induction writes generalizing s with
  | nil => exact wellFormed
  | cons write rest ih => exact ih (step_wellFormed s (write.1, .upsertTool write.2) wellFormed)

theorem headVersion_of_writeAll (writes : List (Env V × ToolEntry V)) {s : StoreState V}
    (wellFormed : WellFormed s.tools.rows) {toolName version : String}
    (found : headVersion (writeAll writes s) toolName = some version) :
    headVersion s toolName = some version ∨
      ∃ write ∈ writes, toolName = write.2.toolName ∧ version = resolvedVersion write.2 := by
  induction writes generalizing s with
  | nil => exact .inl found
  | cons write rest ih =>
      have next := step_wellFormed s (write.1, .upsertTool write.2) wellFormed
      rcases ih next found with before | ⟨later, member, same⟩
      · rcases headVersion_of_upsert wellFormed before with old | same
        · exact .inl old
        · exact .inr ⟨write, List.mem_cons_self, same⟩
      · exact .inr ⟨later, List.mem_cons_of_mem _ member, same⟩

/-- A head above the version that is written for its tool stays. -/
theorem headVersion_writeAll_below (writes : List (Env V × ToolEntry V)) {s : StoreState V}
    (wellFormed : WellFormed s.tools.rows) {toolName version : String}
    (found : headVersion s toolName = some version)
    (below : ∀ write ∈ writes, write.2.toolName = toolName →
      compareVersions (resolvedVersion write.2) version < 0) :
    headVersion (writeAll writes s) toolName = some version := by
  induction writes generalizing s with
  | nil => exact found
  | cons write rest ih =>
      have next := step_wellFormed s (write.1, .upsertTool write.2) wellFormed
      refine ih next ?_ fun later member => below later (List.mem_cons_of_mem _ member)
      by_cases same : write.2.toolName = toolName
      · subst same
        exact headVersion_upsert_below wellFormed found (below write List.mem_cons_self rfl)
      · exact (headVersion_upsert_other wellFormed (Ne.symm same)).trans found

/-- The tools that an operation registers, with their versions. -/
def registrations : Operation V → List (String × String)
  | .addTool entry => [(entry.toolName, (resolvedEntry entry).version)]
  | .addToolsFromProvider provider _ origin =>
      provider.definitions.map fun item =>
        (item.1, providedVersion (providerOrigin provider origin) item.2)
  | .loadFromStore => []

/-- The vault has taken in the pairs, and the store has been offered them. -/
structure Registered (vault after : ToolVault V) (pairs : List (String × String)) : Prop where
  entered : ∀ name version, (name, version) ∈ pairs →
    (after.entries.lookup name).map (fun entry => entry.version) = some version
  others : ∀ name, (∀ version, (name, version) ∉ pairs) →
    (after.entries.lookup name).map (fun entry => entry.version) =
      (vault.entries.lookup name).map fun entry => entry.version
  head_of : ∀ name version, headVersion after.store name = some version →
    headVersion vault.store name = some version ∨ (name, version) ∈ pairs
  head_stays : ∀ name version head, (name, version) ∈ pairs →
    headVersion vault.store name = some head → compareVersions version head < 0 →
      headVersion after.store name = some head

theorem normalizeOrigin_originText (origin : ToolOrigin) :
    normalizeOrigin (some (originText origin)) = origin := by
  cases origin <;> decide

/-- An entry with a resolved version is stored under that version. -/
theorem resolvedVersion_of_resolved {entry : ToolEntry V} {declared : String}
    {origin : ToolOrigin} (isOrigin : entry.origin = originText origin)
    (isVersion : entry.version = resolveInitialVersion declared origin) :
    resolvedVersion entry = entry.version := by
  have nonempty : entry.version ≠ "" := by
    intro empty
    have valid := isValidSemver_resolveInitialVersion declared origin
    rw [← isVersion, empty] at valid
    exact absurd valid (by decide)
  unfold resolvedVersion
  rw [isOrigin, normalizeOrigin_originText, orElse, if_neg nonempty, isVersion]
  exact resolveInitialVersion_resolved declared origin

theorem sameButVectors_addTool (env : VaultEnv V) (entry : VaultEntry V) (vault : ToolVault V) :
    SameButVectors (vault.entries.assign entry.toolName (resolvedEntry entry))
      (addTool env entry vault).entries := by
  unfold addTool
  dsimp only
  split
  · exact .refl _
  · split
    · exact .refl _
    · exact sameButVectors_generateEmbedding _ _ _

theorem registered_addTool (env : VaultEnv V) (entry : VaultEntry V) {vault : ToolVault V}
    (wellFormed : WellFormed vault.store.tools.rows) :
    Registered vault (addTool env entry vault) (registrations (.addTool entry)) := by
  have same := sameButVectors_addTool env entry vault
  have written : resolvedVersion (resolvedEntry entry).toToolEntry =
      (resolvedEntry entry).version := resolvedVersion_of_resolved rfl rfl
  refine ⟨?_, ?_, ?_, ?_⟩
  · intro name version member
    obtain ⟨rfl, rfl⟩ := Prod.mk.inj (List.mem_singleton.mp member)
    rw [same.version, OrderedDict.lookup_assign_self]
    rfl
  · intro name absent
    have other : name ≠ entry.toolName := by
      rintro rfl
      exact absent _ (List.mem_singleton_self _)
    rw [same.version, OrderedDict.lookup_assign_ne other]
  · intro name version found
    rcases headVersion_of_upsert wellFormed found with before | ⟨rfl, rfl⟩
    · exact .inl before
    · exact .inr (by rw [written]; exact List.mem_singleton_self _)
  · intro name version head member found below
    obtain ⟨rfl, rfl⟩ := Prod.mk.inj (List.mem_singleton.mp member)
    rw [← written] at below
    exact headVersion_upsert_below wellFormed found below

/-- A provided entry has no vector yet. -/
theorem bare_providedEntry (providerId : String) (origin : ToolOrigin)
    (essentialNames : Option (List String)) (name : String) (defn : ToolDefinition) :
    (providedEntry providerId origin essentialNames name defn : VaultEntry V).bare =
      providedEntry providerId origin essentialNames name defn := rfl

section Provided

variable (env : VaultEnv V) (provider : Provider) (essentialNames : Option (List String))
  (origin : Option String) (vault : ToolVault V)

/-- The entries of the vault after an import. -/
def importedEntries : OrderedDict String (VaultEntry V) :=
  (addToolsFromProvider env provider essentialNames origin vault).entries

theorem lookup_importedEntries (name : String) :
    ((importedEntries env provider essentialNames origin vault).lookup name).map VaultEntry.bare =
      match provider.definitions.lookup name with
      | some defn =>
          some (providedEntry provider.providerId (providerOrigin provider origin) essentialNames
            name defn)
      | none => (vault.entries.lookup name).map VaultEntry.bare := by
  have same : SameButVectors
      (provider.definitions.foldl (fun entries item =>
        entries.assign item.1 (providedEntry provider.providerId
          (providerOrigin provider origin) essentialNames item.1 item.2)) vault.entries)
      (importedEntries env provider essentialNames origin vault) := by
    unfold importedEntries addToolsFromProvider
    dsimp only
    split
    · exact .refl _
    · exact sameButVectors_buildEmbeddings _ _
  rw [same name, OrderedDict.lookup_foldl_assign provider.definitions
    (fun item => providedEntry provider.providerId (providerOrigin provider origin)
      essentialNames item.1 item.2) provider.distinct]
  cases provider.definitions.lookup name with
  | none => rfl
  | some defn => exact congrArg some (bare_providedEntry _ _ _ name defn)

/-- What an import writes to the store. -/
def importedWrites : List (Env V × ToolEntry V) :=
  provider.definitions.filterMap fun item =>
    ((importedEntries env provider essentialNames origin vault).lookup item.1).map fun entry =>
      (env.writing item.1, entry.toToolEntry)

theorem addToolsFromProvider_store :
    (addToolsFromProvider env provider essentialNames origin vault).store =
      writeAll (importedWrites env provider essentialNames origin vault) vault.store := by
  unfold importedWrites writeAll
  rw [List.foldl_filterMap]
  change provider.definitions.foldl _ vault.store = _
  congr 1
  funext s item
  split
  · rename_i missing
    change (importedEntries env provider essentialNames origin vault).lookup item.1 = none
      at missing
    rw [missing]
    rfl
  · rename_i entry found
    change (importedEntries env provider essentialNames origin vault).lookup item.1 = some entry
      at found
    rw [found]
    rfl

/-- Every write is that of a definition, under its resolved version. -/
theorem mem_importedWrites {write : Env V × ToolEntry V}
    (member : write ∈ importedWrites env provider essentialNames origin vault) :
    (write.2.toolName, resolvedVersion write.2) ∈
      registrations (V := V) (.addToolsFromProvider provider essentialNames origin) := by
  obtain ⟨⟨name, defn⟩, isDefinition, found⟩ := List.mem_filterMap.mp member
  obtain ⟨entry, isEntry, rfl⟩ := Option.map_eq_some_iff.mp found
  have lookup : provider.definitions.lookup name = some defn :=
    OrderedDict.lookup_eq_some_of_mem provider.distinct isDefinition
  have bare := lookup_importedEntries env provider essentialNames origin vault name
  rw [isEntry, lookup] at bare
  have same : entry.bare = providedEntry provider.providerId (providerOrigin provider origin)
      essentialNames name defn := Option.some.inj bare
  have sameName : entry.toolName = name := congrArg (fun e => e.toolName) same
  have stored : resolvedVersion entry.toToolEntry =
      providedVersion (providerOrigin provider origin) defn := by
    change resolvedVersion entry.bare.toToolEntry = _
    rw [same]
    exact resolvedVersion_of_resolved rfl rfl
  refine List.mem_map.mpr ⟨(name, defn), isDefinition, ?_⟩
  rw [stored, sameName]

theorem registered_addToolsFromProvider (wellFormed : WellFormed vault.store.tools.rows) :
    Registered vault (addToolsFromProvider env provider essentialNames origin vault)
      (registrations (V := V) (.addToolsFromProvider provider essentialNames origin)) := by
  have bare := lookup_importedEntries env provider essentialNames origin vault
  have version (name : String) :
      ((importedEntries env provider essentialNames origin vault).lookup name).map
          (fun entry => entry.version) =
        (((importedEntries env provider essentialNames origin vault).lookup name).map
          VaultEntry.bare).map fun entry => entry.version := by
    rw [Option.map_map]
    rfl
  have store := addToolsFromProvider_store env provider essentialNames origin vault
  refine ⟨?_, ?_, ?_, ?_⟩
  · intro name registered member
    obtain ⟨⟨name, defn⟩, isDefinition, same⟩ := List.mem_map.mp member
    obtain ⟨rfl, rfl⟩ := Prod.mk.inj same
    change ((importedEntries env provider essentialNames origin vault).lookup name).map _ = _
    rw [version, bare, OrderedDict.lookup_eq_some_of_mem provider.distinct isDefinition]
    rfl
  · intro name absent
    have none : provider.definitions.lookup name = none := by
      rw [OrderedDict.lookup_eq_none_iff]
      intro isKey
      obtain ⟨⟨_, defn⟩, member, rfl⟩ := List.mem_map.mp isKey
      exact absent _ (List.mem_map.mpr ⟨_, member, rfl⟩)
    change ((importedEntries env provider essentialNames origin vault).lookup name).map _ = _
    rw [version, bare, none, Option.map_map]
    rfl
  · intro name head found
    rw [store] at found
    rcases headVersion_of_writeAll _ wellFormed found with before | ⟨write, member, rfl, rfl⟩
    · exact .inl before
    · exact .inr (mem_importedWrites env provider essentialNames origin vault member)
  · intro name registered head member found below
    rw [store]
    refine headVersion_writeAll_below _ wellFormed found fun write isWrite sameName => ?_
    have isRegistered := mem_importedWrites env provider essentialNames origin vault isWrite
    rw [sameName] at isRegistered
    -- A name is defined once, so this is the version that is registered.
    have unique : ((registrations (V := V)
        (.addToolsFromProvider provider essentialNames origin)).map Prod.fst).Nodup := by
      change ((provider.definitions.map _).map Prod.fst).Nodup
      rw [List.map_map]
      exact provider.distinct
    have same := List.inj_on_of_nodup_map unique isRegistered member rfl
    rw [(Prod.mk.inj same).2]
    exact below

end Provided

/-! ## Loading -/

/-- Loading keeps what is in memory and takes the rest from the heads of the store. -/
theorem lookup_loadFromStore {vault : ToolVault V} (wellFormed : WellFormed vault.store.tools.rows)
    {name : String} {entry : VaultEntry V}
    (found : (loadFromStore vault).entries.lookup name = some entry) :
    vault.entries.lookup name = some entry ∨
      headVersion vault.store name = some entry.version := by
  have heads : ∀ row ∈ listTools vault.store.tools.rows none none,
      headVersion vault.store row.toolName = some row.version := by
    intro row listed
    unfold listTools at listed
    rw [List.mem_insertionSort, List.mem_filter, decide_eq_true_eq] at listed
    obtain ⟨member, main, flag, _⟩ := listed
    exact (headVersion_eq_some_iff wellFormed).mpr ⟨row, member, ⟨rfl, main⟩, flag, rfl⟩
  change ((listTools vault.store.tools.rows none none).foldl _ vault.entries).lookup name = _
    at found
  generalize listTools vault.store.tools.rows none none = listed at heads found
  generalize vault.entries = entries at found ⊢
  induction listed generalizing entries with
  | nil => exact .inl found
  | cons row rest ih =>
      have later := ih (fun other member => heads other (List.mem_cons_of_mem _ member)) _ found
      rcases later with loaded | head
      · dsimp only at loaded
        split at loaded
        · exact .inl loaded
        · rw [OrderedDict.lookup_assign] at loaded
          split at loaded
          · rename_i same
            cases loaded
            rw [same]
            exact .inr (heads row List.mem_cons_self)
          · exact .inl loaded
      · exact .inr head

/-! ## Staying abreast of the store -/

/-- No entry of the vault has a version below the head of its tool. -/
def Abreast (vault : ToolVault V) : Prop :=
  ∀ name entry, vault.entries.lookup name = some entry →
    ∀ head, headVersion vault.store name = some head → ¬ compareVersions entry.version head < 0

/-- No tool is registered with a version below its head in the store. -/
def RegistersNoLower (vault : ToolVault V) (action : VaultEnv V × Operation V) : Prop :=
  ∀ pair ∈ registrations action.2, ∀ head, headVersion vault.store pair.1 = some head →
    ¬ compareVersions pair.2 head < 0

theorem Registered.abreast_iff {vault after : ToolVault V} {pairs : List (String × String)}
    (registered : Registered vault after pairs) (abreast : Abreast vault) :
    Abreast after ↔
      ∀ pair ∈ pairs, ∀ head, headVersion vault.store pair.1 = some head →
        ¬ compareVersions pair.2 head < 0 := by
  constructor
  · rintro stays ⟨name, version⟩ member head found below
    obtain ⟨entry, isEntry, rfl⟩ :=
      Option.map_eq_some_iff.mp (registered.entered name version member)
    exact stays name entry isEntry head
      (registered.head_stays name _ head member found below) below
  · intro noLower name entry found head isHead
    have version : (after.entries.lookup name).map (fun entry => entry.version) =
        some entry.version := by
      rw [found]
      rfl
    by_cases entered : ∃ given, (name, given) ∈ pairs
    · have only : ∀ given, (name, given) ∈ pairs → entry.version = given := fun given member =>
        Option.some.inj (version.symm.trans (registered.entered name given member))
      obtain ⟨given, member⟩ := entered
      rw [only given member]
      rcases registered.head_of name head isHead with before | written
      · exact noLower _ member head before
      · rw [← only given member, only head written, compareVersions_self]
        decide
    · have absent : ∀ given, (name, given) ∉ pairs := fun given member => entered ⟨given, member⟩
      rw [registered.others name absent] at version
      obtain ⟨old, isOld, same⟩ := Option.map_eq_some_iff.mp version
      rw [← same]
      exact abreast name old isOld head
        ((registered.head_of name head isHead).resolve_right (absent head))

theorem wellFormed_step (vault : ToolVault V) (action : VaultEnv V × Operation V)
    (wellFormed : WellFormed vault.store.tools.rows) :
    WellFormed (step vault action).store.tools.rows := by
  obtain ⟨env, operation⟩ := action
  cases operation with
  | addTool entry =>
      exact step_wellFormed vault.store
        (env.writing entry.toolName, .upsertTool (resolvedEntry entry).toToolEntry) wellFormed
  | addToolsFromProvider provider essentialNames origin =>
      change WellFormed (addToolsFromProvider ..).store.tools.rows
      rw [addToolsFromProvider_store]
      exact wellFormed_writeAll _ wellFormed
  | loadFromStore => exact wellFormed

theorem abreast_step_iff {vault : ToolVault V} (action : VaultEnv V × Operation V)
    (wellFormed : WellFormed vault.store.tools.rows) (abreast : Abreast vault) :
    Abreast (step vault action) ↔ RegistersNoLower vault action := by
  obtain ⟨env, operation⟩ := action
  cases operation with
  | addTool entry => exact (registered_addTool env entry wellFormed).abreast_iff abreast
  | addToolsFromProvider provider essentialNames origin =>
      exact (registered_addToolsFromProvider env provider essentialNames origin vault
        wellFormed).abreast_iff abreast
  | loadFromStore =>
      refine iff_of_true ?_ fun pair member => absurd member List.not_mem_nil
      intro name entry found head isHead
      rcases lookup_loadFromStore wellFormed found with before | loaded
      · exact abreast name entry before head isHead
      · rw [Option.some.inj (isHead.symm.trans loaded), compareVersions_self]
        decide

/--
A vault that starts empty on a store never falls behind the heads of the store exactly
as long as no version below the head of its tool is registered.
-/
theorem abreast_throughout_iff (vecExtension : Option (VecExtension V))
    (earlier : List (Env V × Call V)) (operations : List (VaultEnv V × Operation V)) :
    Throughout step Abreast (empty (run ToolStore.step (StoreState.empty vecExtension) earlier))
        operations ↔
      StepsMeet step RegistersNoLower
        (empty (run ToolStore.step (StoreState.empty vecExtension) earlier)) operations := by
  have reach := reachableState_run vecExtension earlier
  refine throughout_iff_stepsMeet (fun vault => WellFormed vault.store.tools.rows) Abreast
    wellFormed_step (fun vault action wellFormed abreast =>
      abreast_step_iff action wellFormed abreast) reach.wellFormed ?_ operations
  intro name entry found
  cases found

/-- No embedding client, and the clock of the store. -/
def plainEnv (now : Nat) : VaultEnv Unit := ⟨none, fun _ => atTime now⟩

/-- A tool that has been promoted. -/
def promoted : List (Env Unit × Call Unit) :=
  [(atTime 1, .upsertTool (plainEntry "0.0.1")), (atTime 2, .promoteToStable "tool" "")]

/-- The definition with which the tool was built in. -/
def builtin : Provider :=
  ⟨"provider", "generated", [("tool", { plainDefinition "first" with version := "0.0.1" })],
    List.nodup_singleton _⟩

theorem not_abreast_reseeded :
    ¬ Throughout step Abreast (empty (run ToolStore.step (StoreState.empty none) promoted))
      [(plainEnv 3, .addToolsFromProvider builtin none none), (plainEnv 3, .loadFromStore)] := by
  intro always
  have entry : ((run step (empty (run ToolStore.step (StoreState.empty none) promoted))
      [(plainEnv 3, .addToolsFromProvider builtin none none),
        (plainEnv 3, .loadFromStore)]).entries.lookup "tool").map (fun entry => entry.version) =
      some "0.0.1" := by decide +kernel
  obtain ⟨found, isFound, version⟩ := Option.map_eq_some_iff.mp entry
  have head : headVersion (run step (empty (run ToolStore.step (StoreState.empty none) promoted))
      [(plainEnv 3, .addToolsFromProvider builtin none none),
        (plainEnv 3, .loadFromStore)]).store "tool" = some "1.0.0" := by
    decide +kernel
  have notLower := always 2 "tool" found isFound "1.0.0" head
  rw [version] at notLower
  exact notLower (by decide)

end ToolVault

end YouMi.Mcp
