import YouMi.Core.ToolExecutor
import YouMi.Mcp.Vault

/-!
# Tool providers

`LocalFunctionProvider` offers functions as tools.  Definitions and handlers stand
under the same names, which are the names in the definitions.
-/

namespace YouMi.Mcp

open YouMi.Core YouMi.Library YouMi.Python

/-- A function with what it returns, as text, or throws. -/
abbrev ToolHandler := Dict → Except Fault String

/-- `MCPToolResult.success`. -/
def success (text : String) : MCPToolResult := ⟨text, false⟩

/-- `MCPToolResult.failure`. -/
def failure (message : String) : MCPToolResult := ⟨message, true⟩

structure LocalFunctionProvider extends ToolVault.Provider where
  handlers : OrderedDict String ToolHandler
  named : ∀ entry ∈ definitions, entry.2.name = entry.1
  handled : handlers.keys = definitions.keys

namespace LocalFunctionProvider

/-- A provider without tools. -/
def create (providerId : String := "local") (origin : String := "generated") :
    LocalFunctionProvider where
  providerId := providerId
  origin := origin
  definitions := []
  distinct := List.nodup_nil
  handlers := []
  named := nofun
  handled := rfl

def register (provider : LocalFunctionProvider) (definition : ToolDefinition)
    (handler : ToolHandler) : LocalFunctionProvider where
  providerId := provider.providerId
  origin := provider.origin
  definitions := provider.definitions.assign definition.name definition
  distinct := OrderedDict.nodup_keys_assign provider.distinct
  handlers := provider.handlers.assign definition.name handler
  named := by
    intro entry member
    rcases OrderedDict.mem_assign member with rfl | before
    · rfl
    · exact provider.named entry before
  handled := by
    rw [OrderedDict.keys_assign, OrderedDict.keys_assign, provider.handled]

def unregister (provider : LocalFunctionProvider) (name : String) : LocalFunctionProvider where
  providerId := provider.providerId
  origin := provider.origin
  definitions := provider.definitions.erase name
  distinct := OrderedDict.nodup_keys_erase provider.distinct
  handlers := provider.handlers.erase name
  named := fun entry member => provider.named entry (List.mem_of_mem_filter member)
  handled := by
    rw [OrderedDict.keys_erase, OrderedDict.keys_erase, provider.handled]

/-- The names in what `get_tools` returns. -/
def getTools (provider : LocalFunctionProvider) : List String :=
  provider.definitions.map fun entry => entry.2.name

def execute (provider : LocalFunctionProvider) (toolName : String) (arguments : Dict) :
    Except Fault MCPToolResult :=
  match provider.handlers.lookup toolName with
  | none =>
      .ok (failure ("工具 '" ++ toolName ++ "' 在 provider '" ++ provider.providerId ++ "' 中未找到"))
  | some handler =>
      match handler arguments with
      | .ok result => .ok (success result)
      | .error fault =>
          if fault.isException then .ok (failure ("工具执行异常: " ++ fault.text)) else .error fault

variable {provider : LocalFunctionProvider} {name other : String}

theorem getTools_eq (provider : LocalFunctionProvider) :
    provider.getTools = provider.definitions.keys :=
  List.map_congr_left fun entry member => provider.named entry member

@[simp]
theorem mem_getTools_register {definition : ToolDefinition} {handler : ToolHandler} :
    other ∈ (provider.register definition handler).getTools ↔
      other = definition.name ∨ other ∈ provider.getTools := by
  rw [getTools_eq, getTools_eq]
  exact OrderedDict.mem_keys_assign

@[simp]
theorem mem_getTools_unregister :
    other ∈ (provider.unregister name).getTools ↔ other ≠ name ∧ other ∈ provider.getTools := by
  rw [getTools_eq, getTools_eq]
  exact OrderedDict.mem_keys_erase

/-- What is offered has a function behind it. -/
theorem handler_of_mem_getTools (offered : name ∈ provider.getTools) :
    ∃ handler, provider.handlers.lookup name = some handler := by
  rw [getTools_eq, ← provider.handled] at offered
  exact Option.isSome_iff_exists.mp (OrderedDict.lookup_isSome_iff.mpr offered)

end LocalFunctionProvider

end YouMi.Mcp
