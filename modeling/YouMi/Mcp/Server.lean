import YouMi.Library.Runs
import YouMi.Mcp.Provider

/-!
# The tool server

`MCPServer` keeps its providers and a table that says which of them a tool is called at.
The table is written when a provider is registered or unregistered, and only then: a
provider that changes its tools afterwards does not tell the server.
-/

namespace YouMi.Mcp

open YouMi.Core YouMi.Library YouMi.Python

structure MCPServer (V : Type) where
  providers : OrderedDict String LocalFunctionProvider := []
  toolRoute : OrderedDict String String := []
  callCount : Nat := 0
  errorCount : Nat := 0
  vault : Option (ToolVault V) := none

/-- How the provider of a tool is not found: no route, or a route to a provider that is gone,
for which the dictionary of providers throws a `KeyError`. -/
inductive RouteError where
  | notFound
  | keyError (providerId : String)

/-- What a call throws. -/
inductive CallFault where
  | keyError (providerId : String)
  | thrown (fault : Fault)

/-- The answer to a `tools/call`. -/
inductive CallResponse where
  | result (result : MCPToolResult)
  /-- `MCP_ERROR_TOOL_NOT_FOUND`, with the tools that the message lists. -/
  | toolNotFound (toolName : String) (registered : List String)
  /-- Code -32603, with what was thrown. -/
  | internalError (thrown : CallFault)

namespace MCPServer

variable {V : Type}

/-! ## Providers -/

def unregisterProvider (server : MCPServer V) (providerId : String) : MCPServer V :=
  match server.providers.lookup providerId with
  | none => server
  | some provider =>
      { server with
        providers := server.providers.erase providerId
        toolRoute := provider.getTools.foldl OrderedDict.erase server.toolRoute }

def registerProvider (env : VaultEnv V) (server : MCPServer V)
    (provider : LocalFunctionProvider) (essentialNames : Option (List String)) : MCPServer V :=
  let pid := provider.providerId
  let server :=
    if (server.providers.lookup pid).isSome then server.unregisterProvider pid else server
  { server with
    providers := server.providers.assign pid provider
    toolRoute := provider.getTools.foldl (fun route tool => route.assign tool pid) server.toolRoute
    vault := server.vault.map
      (ToolVault.addToolsFromProvider env provider.toProvider essentialNames none) }

/-! ## Calls -/

/-- The provider that a call of the tool goes to. -/
def route (server : MCPServer V) (toolName : String) : Except RouteError LocalFunctionProvider :=
  match server.toolRoute.lookup toolName with
  | none => .error .notFound
  | some providerId =>
      match server.providers.lookup providerId with
      | none => .error (.keyError providerId)
      | some provider => .ok provider

def callTool (server : MCPServer V) (toolName : String) (arguments : Dict) :
    Except CallFault MCPToolResult :=
  match server.route toolName with
  | .error .notFound => .ok (failure ("工具 '" ++ toolName ++ "' 未找到"))
  | .error (.keyError providerId) => .error (.keyError providerId)
  | .ok provider => (provider.execute toolName arguments).mapError .thrown

/-- What becomes of the outcome of an execution. -/
def respond (server : MCPServer V) :
    Except Fault MCPToolResult → MCPServer V × Except Fault CallResponse
  | .ok result =>
      ({ server with errorCount := server.errorCount + if result.isError then 1 else 0 },
        .ok (.result result))
  | .error fault =>
      (server, if fault.isException then .ok (.internalError (.thrown fault)) else .error fault)

/-- `_handle_call_tool` under the `except Exception` of `handle`. -/
def handleCallTool (server : MCPServer V) (toolName : String) (arguments : Dict) :
    MCPServer V × Except Fault CallResponse :=
  let server := { server with callCount := server.callCount + 1 }
  match server.route toolName with
  | .error .notFound =>
      ({ server with errorCount := server.errorCount + 1 },
        .ok (.toolNotFound toolName server.toolRoute.keys))
  | .error (.keyError providerId) => (server, .ok (.internalError (.keyError providerId)))
  | .ok provider => server.respond (provider.execute toolName arguments)

/-! ## Steps -/

/-- What happens to a server and to the providers it holds. -/
inductive Action (V : Type) where
  | registerProvider (env : VaultEnv V) (provider : LocalFunctionProvider)
      (essentialNames : Option (List String))
  | unregisterProvider (providerId : String)
  | addTool (providerId : String) (definition : ToolDefinition) (handler : ToolHandler)
  | removeTool (providerId : String) (name : String)

/-- A provider that is registered changes its own tools. -/
def changeProvider (server : MCPServer V) (providerId : String)
    (change : LocalFunctionProvider → LocalFunctionProvider) : MCPServer V :=
  match server.providers.lookup providerId with
  | none => server
  | some provider => { server with providers := server.providers.assign providerId (change provider) }

def step (server : MCPServer V) : Action V → MCPServer V
  | .registerProvider env provider essentialNames =>
      server.registerProvider env provider essentialNames
  | .unregisterProvider providerId => server.unregisterProvider providerId
  | .addTool providerId definition handler =>
      server.changeProvider providerId (·.register definition handler)
  | .removeTool providerId name => server.changeProvider providerId (·.unregister name)

/-! ## Routes -/

/-- The provider is registered and offers the tool. -/
def Provides (server : MCPServer V) (providerId toolName : String) : Prop :=
  ∃ provider, server.providers.lookup providerId = some provider ∧ toolName ∈ provider.getTools

/-- Some registered provider offers the tool. -/
def Offered (server : MCPServer V) (toolName : String) : Prop :=
  ∃ providerId, server.Provides providerId toolName

/-- Calls of the tool go to the provider. -/
structure Answers (server : MCPServer V) (toolName : String)
    (provider : LocalFunctionProvider) : Prop where
  callTool : ∀ arguments, server.callTool toolName arguments =
    (provider.execute toolName arguments).mapError .thrown
  handleCallTool : ∀ arguments, server.handleCallTool toolName arguments =
    respond { server with callCount := server.callCount + 1 } (provider.execute toolName arguments)

/-- The table says of every tool where it is offered, and calls find it there. -/
structure Routed (server : MCPServer V) : Prop where
  routable_iff : ∀ toolName, (server.toolRoute.lookup toolName).isSome ↔ server.Offered toolName
  leads : ∀ toolName providerId, server.toolRoute.lookup toolName = some providerId →
    server.Provides providerId toolName
  calls : ∀ toolName, server.Offered toolName → ∃ providerId provider handler,
    server.providers.lookup providerId = some provider ∧
      provider.handlers.lookup toolName = some handler ∧ server.Answers toolName provider

/-- Another provider offers the tool, too. -/
def OfferedElsewhere (server : MCPServer V) (providerId toolName : String) : Prop :=
  ∃ other, other ≠ providerId ∧ server.Provides other toolName

/-- What an action needs of the server for the table to be right after it: no provider leaves
tools that another one offers, a tool that is added is routed already, and one that is
removed is routed elsewhere. -/
def KeepsRoutes (server : MCPServer V) : Action V → Prop
  | .registerProvider _ provider _ => ∀ toolName,
      server.Provides provider.providerId toolName → toolName ∉ provider.getTools →
        ¬server.OfferedElsewhere provider.providerId toolName
  | .unregisterProvider providerId => ∀ toolName,
      server.Provides providerId toolName → ¬server.OfferedElsewhere providerId toolName
  | .addTool providerId definition _ =>
      (server.providers.lookup providerId).isSome → server.Offered definition.name
  | .removeTool providerId name => server.toolRoute.lookup name ≠ some providerId

/-- The route of one tool leads to a provider of it, and is there if there is a provider. -/
def Points (server : MCPServer V) (toolName : String) : Prop :=
  (∀ providerId, server.toolRoute.lookup toolName = some providerId →
    server.Provides providerId toolName) ∧
  (server.Offered toolName → server.toolRoute.lookup toolName ≠ none)

variable {server : MCPServer V} {providerId toolName : String}

theorem route_eq {provider : LocalFunctionProvider}
    (found : server.toolRoute.lookup toolName = some providerId)
    (registered : server.providers.lookup providerId = some provider) :
    server.route toolName = .ok provider := by
  unfold route
  rw [found]
  dsimp only
  rw [registered]

theorem answers_of_route {provider : LocalFunctionProvider}
    (leads : server.route toolName = .ok provider) : server.Answers toolName provider where
  callTool := fun arguments => by
    unfold callTool
    rw [leads]
  handleCallTool := fun arguments => by
    have counted : route { server with callCount := server.callCount + 1 } toolName =
        .ok provider := leads
    unfold handleCallTool
    dsimp only
    rw [counted]

theorem routed_iff : server.Routed ↔ ∀ toolName, server.Points toolName := by
  constructor
  · intro routed toolName
    refine ⟨routed.leads toolName, fun offered absent => ?_⟩
    have routable := (routed.routable_iff toolName).mpr offered
    rw [absent] at routable
    cases routable
  · intro points
    have leads := fun toolName => (points toolName).1
    have complete := fun toolName => (points toolName).2
    refine ⟨fun toolName => ⟨fun routable => ?_, fun offered => ?_⟩, leads, fun toolName offered => ?_⟩
    · obtain ⟨providerId, found⟩ := Option.isSome_iff_exists.mp routable
      exact ⟨providerId, leads toolName providerId found⟩
    · exact Option.isSome_iff_ne_none.mpr (complete toolName offered)
    · obtain ⟨providerId, found⟩ := Option.ne_none_iff_exists'.mp (complete toolName offered)
      obtain ⟨provider, registered, offers⟩ := leads toolName providerId found
      obtain ⟨handler, handled⟩ := LocalFunctionProvider.handler_of_mem_getTools offers
      exact ⟨providerId, provider, handler, registered, handled,
        answers_of_route (route_eq found registered)⟩

/-! ### One step -/

theorem provides_changeProvider (change : LocalFunctionProvider → LocalFunctionProvider)
    {other : String} :
    (server.changeProvider providerId change).Provides other toolName ↔
      if other = providerId then
        ∃ provider, server.providers.lookup providerId = some provider ∧
          toolName ∈ (change provider).getTools
      else server.Provides other toolName := by
  unfold changeProvider Provides
  cases registered : server.providers.lookup providerId with
  | none =>
      dsimp only
      by_cases same : other = providerId
      · simp [same, registered]
      · rw [if_neg same]
  | some provider =>
      dsimp only
      rw [OrderedDict.lookup_assign]
      by_cases same : other = providerId
      · simp [same]
      · simp [same]

theorem toolRoute_changeProvider (change : LocalFunctionProvider → LocalFunctionProvider) :
    (server.changeProvider providerId change).toolRoute = server.toolRoute := by
  unfold changeProvider
  split <;> rfl

theorem provides_unregisterProvider {other : String} :
    (server.unregisterProvider providerId).Provides other toolName ↔
      other ≠ providerId ∧ server.Provides other toolName := by
  unfold unregisterProvider Provides
  cases registered : server.providers.lookup providerId with
  | none =>
      refine ⟨fun provided => ⟨?_, provided⟩, And.right⟩
      rintro rfl
      obtain ⟨provider, found, _⟩ := provided
      rw [registered] at found
      cases found
  | some provider =>
      dsimp only
      rw [OrderedDict.lookup_erase]
      by_cases same : other = providerId
      · simp [same]
      · simp [same]

theorem lookup_toolRoute_unregisterProvider_of_provides
    (provided : server.Provides providerId toolName) :
    (server.unregisterProvider providerId).toolRoute.lookup toolName = none := by
  obtain ⟨provider, registered, offers⟩ := provided
  unfold unregisterProvider
  rw [registered]
  dsimp only
  rw [OrderedDict.lookup_foldl_erase, if_pos offers]

theorem lookup_toolRoute_unregisterProvider_of_not_provides
    (lacks : ¬server.Provides providerId toolName) :
    (server.unregisterProvider providerId).toolRoute.lookup toolName =
      server.toolRoute.lookup toolName := by
  unfold unregisterProvider
  cases registered : server.providers.lookup providerId with
  | none => rfl
  | some provider =>
      dsimp only
      rw [OrderedDict.lookup_foldl_erase, if_neg]
      exact fun offers => lacks ⟨provider, registered, offers⟩

theorem unregisterProvider_of_not_registered
    (absent : (server.providers.lookup providerId).isSome ≠ true) :
    server.unregisterProvider providerId = server := by
  unfold unregisterProvider
  rw [Option.not_isSome_iff_eq_none.mp absent]

section Register

variable {env : VaultEnv V} {provider : LocalFunctionProvider}
  {essentialNames : Option (List String)}

/-- The provider that had the identifier is unregistered, if there was one. -/
theorem registerProvider_eq :
    server.registerProvider env provider essentialNames =
      let cleared := server.unregisterProvider provider.providerId
      { cleared with
        providers := cleared.providers.assign provider.providerId provider
        toolRoute := provider.getTools.foldl
          (fun route tool => route.assign tool provider.providerId) cleared.toolRoute
        vault := cleared.vault.map
          (ToolVault.addToolsFromProvider env provider.toProvider essentialNames none) } := by
  unfold registerProvider
  dsimp only
  split
  · rfl
  · rename_i absent
    rw [unregisterProvider_of_not_registered absent]

theorem provides_registerProvider {other : String} :
    (server.registerProvider env provider essentialNames).Provides other toolName ↔
      if other = provider.providerId then toolName ∈ provider.getTools
      else server.Provides other toolName := by
  have before : (server.unregisterProvider provider.providerId).Provides other toolName ↔ _ :=
    provides_unregisterProvider
  rw [registerProvider_eq]
  unfold Provides at before ⊢
  dsimp only
  rw [OrderedDict.lookup_assign]
  by_cases same : other = provider.providerId
  · simp [same]
  · rw [if_neg same, if_neg same, before]
    simp [same]

theorem lookup_toolRoute_registerProvider :
    (server.registerProvider env provider essentialNames).toolRoute.lookup toolName =
      if toolName ∈ provider.getTools then some provider.providerId
      else (server.unregisterProvider provider.providerId).toolRoute.lookup toolName := by
  rw [registerProvider_eq]
  exact OrderedDict.lookup_foldl_assign_const _ _ _ _

end Register

theorem offered_unregisterProvider :
    (server.unregisterProvider providerId).Offered toolName ↔
      server.OfferedElsewhere providerId toolName := by
  unfold Offered OfferedElsewhere
  simp only [provides_unregisterProvider]

/-- A tool of the provider has no route after it has left. -/
theorem points_unregisterProvider (points : server.Points toolName) :
    (server.unregisterProvider providerId).Points toolName ↔
      (server.Provides providerId toolName → ¬server.OfferedElsewhere providerId toolName) := by
  unfold Points
  rw [offered_unregisterProvider]
  by_cases provided : server.Provides providerId toolName
  · rw [lookup_toolRoute_unregisterProvider_of_provides provided]
    simp [provided]
  · rw [lookup_toolRoute_unregisterProvider_of_not_provides provided]
    refine iff_of_true ⟨fun other found => ?_, fun elsewhere => ?_⟩ (absurd · provided)
    · have provides := points.1 other found
      exact provides_unregisterProvider.mpr ⟨fun same => provided (same ▸ provides), provides⟩
    · obtain ⟨other, _, provides⟩ := elsewhere
      exact points.2 ⟨other, provides⟩

theorem points_registerProvider {env : VaultEnv V} {provider : LocalFunctionProvider}
    {essentialNames : Option (List String)} (points : server.Points toolName) :
    (server.registerProvider env provider essentialNames).Points toolName ↔
      (server.Provides provider.providerId toolName → toolName ∉ provider.getTools →
        ¬server.OfferedElsewhere provider.providerId toolName) := by
  by_cases own : toolName ∈ provider.getTools
  · refine iff_of_true ⟨fun other found => ?_, fun _ absent => ?_⟩ fun _ lacks => absurd own lacks
    · rw [lookup_toolRoute_registerProvider, if_pos own] at found
      rw [provides_registerProvider, if_pos (Option.some.inj found).symm]
      exact own
    · rw [lookup_toolRoute_registerProvider, if_pos own] at absent
      cases absent
  · -- A tool that the new provider lacks is where it is once the old one has left.
    have same : ∀ other, (server.registerProvider env provider essentialNames).Provides
        other toolName ↔ (server.unregisterProvider provider.providerId).Provides other toolName := by
      intro other
      rw [provides_registerProvider, provides_unregisterProvider]
      by_cases old : other = provider.providerId
      · simp [old, own]
      · simp [old]
    have cleared : (server.unregisterProvider provider.providerId).Points toolName ↔ _ :=
      points_unregisterProvider points
    unfold Points Offered at cleared ⊢
    simp only [same, lookup_toolRoute_registerProvider, if_neg own]
    rw [cleared]
    simp [own]

theorem points_addTool {definition : ToolDefinition} {handler : ToolHandler}
    (points : server.Points toolName) :
    (server.changeProvider providerId (·.register definition handler)).Points toolName ↔
      (toolName = definition.name → (server.providers.lookup providerId).isSome →
        server.Offered toolName) := by
  have provides : ∀ other, (server.changeProvider providerId
      (·.register definition handler)).Provides other toolName ↔
        server.Provides other toolName ∨ other = providerId ∧ toolName = definition.name ∧
          (server.providers.lookup providerId).isSome := by
    intro other
    rw [provides_changeProvider]
    by_cases same : other = providerId
    · subst same
      cases registered : server.providers.lookup other with
      | none => simp [Provides, registered]
      | some provider => simp [Provides, registered, or_comm]
    · simp [same]
  unfold Points Offered
  simp only [provides, toolRoute_changeProvider]
  constructor
  · rintro ⟨_, complete⟩ same registered
    obtain ⟨other, found⟩ := Option.ne_none_iff_exists'.mp
      (complete ⟨providerId, .inr ⟨rfl, same, registered⟩⟩)
    exact ⟨other, points.1 other found⟩
  · refine fun offered => ⟨fun other found => .inl (points.1 other found), ?_⟩
    rintro ⟨other, provided | ⟨_, same, registered⟩⟩
    · exact points.2 ⟨other, provided⟩
    · exact points.2 (offered same registered)

theorem points_removeTool {name : String} (points : server.Points toolName) :
    (server.changeProvider providerId (·.unregister name)).Points toolName ↔
      (toolName = name → server.toolRoute.lookup toolName ≠ some providerId) := by
  have provides : ∀ other, (server.changeProvider providerId (·.unregister name)).Provides
      other toolName ↔
        server.Provides other toolName ∧ ¬(other = providerId ∧ toolName = name) := by
    intro other
    rw [provides_changeProvider]
    by_cases same : other = providerId
    · subst same
      unfold Provides
      simp only [LocalFunctionProvider.mem_getTools_unregister, if_true, true_and]
      constructor
      · rintro ⟨provider, registered, differs, offers⟩
        exact ⟨⟨provider, registered, offers⟩, differs⟩
      · rintro ⟨⟨provider, registered, offers⟩, differs⟩
        exact ⟨provider, registered, differs, offers⟩
    · simp [same]
  unfold Points Offered
  simp only [provides, toolRoute_changeProvider]
  constructor
  · rintro ⟨leads, _⟩ same found
    exact (leads providerId found).2 ⟨rfl, same⟩
  · refine fun elsewhere => ⟨fun other found => ⟨points.1 other found, ?_⟩, ?_⟩
    · rintro ⟨rfl, same⟩
      exact elsewhere same found
    · rintro ⟨other, provided, _⟩
      exact points.2 ⟨other, provided⟩

theorem routed_step_iff (action : Action V) (routed : server.Routed) :
    (server.step action).Routed ↔ server.KeepsRoutes action := by
  have points := routed_iff.mp routed
  rw [routed_iff]
  cases action with
  | registerProvider env provider essentialNames =>
      exact forall_congr' fun toolName => points_registerProvider (points toolName)
  | unregisterProvider providerId =>
      exact forall_congr' fun toolName => points_unregisterProvider (points toolName)
  | addTool providerId definition handler =>
      refine (forall_congr' fun toolName => points_addTool (points toolName)).trans ?_
      exact ⟨fun each => each _ rfl, fun offered toolName same => same ▸ offered⟩
  | removeTool providerId name =>
      refine (forall_congr' fun toolName => points_removeTool (points toolName)).trans ?_
      exact ⟨fun each => each _ rfl, fun elsewhere toolName same => same ▸ elsewhere⟩

theorem routed_start (vault : Option (ToolVault V)) : Routed { vault := vault } where
  routable_iff := fun _ => iff_of_false nofun fun ⟨_, _, found, _⟩ => nomatch found
  leads := fun _ _ found => nomatch found
  calls := fun _ ⟨_, _, found, _⟩ => nomatch found

/-! ### Runs -/

/--
From an empty server on, the table is right all along exactly if each action
meets the condition under which the server, which only looks at the provider
that comes or goes, does enough.
-/
theorem routed_throughout_iff (vault : Option (ToolVault V)) (actions : List (Action V)) :
    Throughout step Routed { vault := vault } actions ↔
      StepsMeet step KeepsRoutes { vault := vault } actions :=
  throughout_iff_stepsMeet (fun _ => True) Routed (fun _ _ _ => trivial)
    (fun _ action _ routed => routed_step_iff action routed) trivial (routed_start vault) actions

/-- A provider with one tool. -/
def providerOf (providerId toolName : String) : LocalFunctionProvider :=
  (LocalFunctionProvider.create providerId "generated").register
    { ToolStore.plainDefinition "" with name := toolName } fun _ => .ok ""

/-- Two providers offer one tool, and the second is unregistered: the first still offers it. -/
theorem route_lost :
    ¬∀ actions : List (Action Unit), Throughout step Routed {} actions := by
  intro always
  have routed := always
    [.registerProvider ⟨none, fun _ => ToolStore.atTime 0⟩ (providerOf "a" "t") none,
      .registerProvider ⟨none, fun _ => ToolStore.atTime 0⟩ (providerOf "b" "t") none,
      .unregisterProvider "b"] 3
  have routable := (routed.routable_iff "t").mpr ⟨"a", providerOf "a" "t", rfl, by decide⟩
  exact absurd routable (by decide)

end MCPServer

end YouMi.Mcp
