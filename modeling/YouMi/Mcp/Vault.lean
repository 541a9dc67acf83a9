import YouMi.Library.OrderedDict
import YouMi.Mcp.ToolStore.Operations

/-!
# The tool vault

`ToolVault` keeps one entry for each tool in memory and writes what is registered
to the tool store behind it.  An exception while writing is logged and forgotten.
-/

namespace YouMi.Mcp

open YouMi.Core YouMi.Library YouMi.Mcp.ToolStore

inductive ToolContextTier where
  | hot
  | warm
  | cold
  deriving DecidableEq, Repr

structure VaultEntry (V : Type) extends ToolEntry V where
  tier : ToolContextTier

structure ToolVault (V : Type) where
  entries : OrderedDict String (VaultEntry V)
  store : StoreState V

/-- Nothing for a text or a batch for which the client raises. -/
structure EmbeddingClient (V : Type) where
  embedOne : String → Option V
  embed : List String → Option (List V)

/-- What an operation of the vault meets outside: its client, and the store's surroundings. -/
structure VaultEnv (V : Type) where
  client : Option (EmbeddingClient V)
  /-- At the time a tool is written. -/
  writing : String → Env V

variable {V : Type}

def originText : ToolOrigin → String
  | .external => "external"
  | .generated => "generated"

namespace ToolVault

def empty (store : StoreState V) : ToolVault V := ⟨[], store⟩

/-! ## Embeddings -/

def embeddingText (name : String) (entry : VaultEntry V) : String :=
  name ++ ": " ++ entry.definition.description

/-- `_generate_embedding`. -/
def generateEmbedding (client : EmbeddingClient V) (toolName : String)
    (entries : OrderedDict String (VaultEntry V)) : OrderedDict String (VaultEntry V) :=
  match entries.lookup toolName with
  | none => entries
  | some entry =>
      if entry.embedding.isSome then entries
      else
        match client.embedOne (embeddingText toolName entry) with
        | none => entries
        | some vec => entries.assign toolName { entry with embedding := some vec }

/-- Each of the entries is given the vector in its place. -/
def assignEmbeddings (entries : OrderedDict String (VaultEntry V)) :
    List (String × V) → OrderedDict String (VaultEntry V)
  | [] => entries
  | (name, vec) :: rest =>
      match entries.lookup name with
      | none => assignEmbeddings entries rest
      | some entry =>
          assignEmbeddings (entries.assign name { entry with embedding := some vec }) rest

/-- `build_embeddings`: one batch for all entries without a vector. -/
def buildEmbeddings (client : EmbeddingClient V) (entries : OrderedDict String (VaultEntry V)) :
    OrderedDict String (VaultEntry V) :=
  let toEmbed := entries.filter fun entry => entry.2.embedding.isNone
  if toEmbed = [] then entries
  else
    match client.embed (toEmbed.map fun entry => embeddingText entry.1 entry.2) with
    | none => entries
    | some vectors => assignEmbeddings entries ((toEmbed.map Prod.fst).zip vectors)

/-! ## Registering -/

/-- `upsert_tool` in a `try` that swallows what it raises. -/
def persist (env : Env V) (entry : ToolEntry V) (s : StoreState V) : StoreState V :=
  (upsertTool env entry s).2

/-- The entry as `add_tool` keeps it: version, stage and metadata follow the definition. -/
def resolvedEntry (entry : VaultEntry V) : VaultEntry V :=
  let summary := orElse entry.summary (slice entry.definition.description 80)
  let origin := normalizeOrigin (some entry.origin)
  let version := resolveInitialVersion (orElse entry.version entry.definition.version) origin
  { entry with
    summary := summary
    version := version
    origin := originText origin
    stage := stageOf version
    definition := { entry.definition with version := version }
    riskLevel := entry.definition.riskLevel
    requiredPermissions := entry.definition.requiredPermissions
    lineageId := orElse entry.lineageId entry.toolName
    summaryL2 := orElse entry.summaryL2 (slice summary 30) }

/-- `add_tool`; the store is given the entry as it was before its vector was made. -/
def addTool (env : VaultEnv V) (entry : VaultEntry V) (vault : ToolVault V) : ToolVault V :=
  let entry := resolvedEntry entry
  let entries := vault.entries.assign entry.toolName entry
  { entries :=
      match env.client with
      | none => entries
      | some client =>
          if entry.embedding.isSome then entries
          else generateEmbedding client entry.toolName entries
    store := persist (env.writing entry.toolName) entry.toToolEntry vault.store }

/-- What `add_tools_from_provider` reads of a provider. -/
structure Provider where
  providerId : String
  origin : String
  definitions : OrderedDict String ToolDefinition
  distinct : definitions.keys.Nodup

/-- The origin that is given, or that of the provider. -/
def providerOrigin (provider : Provider) (origin : Option String) : ToolOrigin :=
  normalizeOrigin (some (origin.getD provider.origin))

def providedVersion (origin : ToolOrigin) (defn : ToolDefinition) : String :=
  resolveInitialVersion defn.version origin

def providedEntry (providerId : String) (origin : ToolOrigin)
    (essentialNames : Option (List String)) (name : String) (defn : ToolDefinition) :
    VaultEntry V :=
  let version := providedVersion origin defn
  { toolName := name
    definition := { defn with version := version }
    providerId := providerId
    essential := match essentialNames with | none => true | some names => name ∈ names
    embedding := none
    summary := slice defn.description 80
    version := version
    language := "python"
    riskLevel := "low"
    requiredPermissions := []
    lineageId := ""
    summaryL2 := ""
    origin := originText origin
    stage := stageOf version
    tier :=
      match essentialNames with
      | none => .hot
      | some names => if name ∈ names then .hot else .cold }

/-- All entries are replaced first; then each is written to the store. -/
def addToolsFromProvider (env : VaultEnv V) (provider : Provider)
    (essentialNames : Option (List String)) (origin : Option String) (vault : ToolVault V) :
    ToolVault V :=
  let given := providerOrigin provider origin
  let entries := provider.definitions.foldl
    (fun entries item =>
      entries.assign item.1 (providedEntry provider.providerId given essentialNames item.1 item.2))
    vault.entries
  let entries :=
    match env.client with
    | none => entries
    | some client => buildEmbeddings client entries
  { entries := entries
    store := provider.definitions.foldl
      (fun s item =>
        match entries.lookup item.1 with
        | none => s
        | some entry => persist (env.writing item.1) entry.toToolEntry s)
      vault.store }

/-- `load_from_store`: the tools that are not in memory yet. -/
def loadFromStore (vault : ToolVault V) : ToolVault V :=
  { vault with
    entries := (listTools vault.store.tools.rows none none).foldl
      (fun entries row =>
        if (entries.lookup row.toolName).isSome then entries
        else entries.assign row.toolName { rowToEntry vault.store row with tier := .cold })
      vault.entries }

/-- `load_tool`: the tool becomes hot. -/
def loadTool (vault : ToolVault V) (toolName : String) : Option (VaultEntry V) × ToolVault V :=
  match vault.entries.lookup toolName with
  | none => (none, vault)
  | some entry =>
      if entry.tier = .hot then (some entry, vault)
      else
        let entry := { entry with tier := ToolContextTier.hot }
        (some entry, { vault with entries := vault.entries.assign toolName entry })

/-! ## Runs -/

inductive Operation (V : Type) where
  | addTool (entry : VaultEntry V)
  | addToolsFromProvider (provider : Provider) (essentialNames : Option (List String))
      (origin : Option String)
  | loadFromStore

def step (vault : ToolVault V) (action : VaultEnv V × Operation V) : ToolVault V :=
  match action.2 with
  | .addTool entry => addTool action.1 entry vault
  | .addToolsFromProvider provider essentialNames origin =>
      addToolsFromProvider action.1 provider essentialNames origin vault
  | .loadFromStore => loadFromStore vault

end ToolVault

end YouMi.Mcp
