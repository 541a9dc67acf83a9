import YouMi.Core.Hooks

/-!
# Plugins

The plugin manager of `core/plugin.py`.  The code of a plugin is its own: it makes calls of the
hook registry one after another, and then it returns or raises.  `register` writes the plugin into
the table only after `setup` has returned, but it takes back nothing of what `setup` has done to
the registry before it raised.  `unregister` takes out the hooks of the plugin's name.
-/

namespace YouMi.Core.Plugins

open YouMi.Core.Hooks YouMi.Library

/-! ## The code of a plugin -/

inductive RegistryCall where
  | register (hookType : HookType) (handler : HookHandler) (priority : Int) (pluginName : String)
  | unregister (hookType : HookType) (isHandler : HookEntry → Bool)
  | unregisterAllByPlugin (pluginName : String)

def RegistryCall.apply : RegistryCall → HookRegistry → HookRegistry
  | .register hookType handler priority pluginName, registry =>
      registry.register hookType handler priority pluginName
  | .unregister hookType isHandler, registry => registry.unregister hookType isHandler
  | .unregisterAllByPlugin pluginName, registry => (registry.unregisterAllByPlugin pluginName).1

/-- What the code does next may depend on what the registry has become. -/
inductive PluginCode where
  | returns
  | raises (fault : Fault)
  | calls (call : RegistryCall) (next : HookRegistry → PluginCode)

def PluginCode.run : PluginCode → HookRegistry → HookRegistry × Except Fault Unit
  | .returns, registry => (registry, .ok ())
  | .raises fault, registry => (registry, .error fault)
  | .calls call next, registry => (next (call.apply registry)).run (call.apply registry)

structure Plugin where
  name : String
  setup : HookRegistry → PluginCode
  teardown : HookRegistry → PluginCode := fun _ => .returns

namespace Plugin

variable (plugin : Plugin) (registry : HookRegistry)

/-- The registry that `setup` leaves, and how it ends. -/
def setUp : HookRegistry × Except Fault Unit := (plugin.setup registry).run registry

def tornDown : HookRegistry × Except Fault Unit := (plugin.teardown registry).run registry

end Plugin

/-! ## The manager -/

structure PluginRecord where
  plugin : Plugin
  active : Bool := true

structure PluginManager where
  registry : HookRegistry
  plugins : OrderedDict String PluginRecord

namespace PluginManager

def register (manager : PluginManager) (plugin : Plugin) : PluginManager × Except Fault Unit :=
  if plugin.name ∈ manager.plugins.keys then
    (manager, .error (.exception s!"插件 '{plugin.name}' 已注册"))
  else
    match plugin.setUp manager.registry with
    | (registry, .error fault) => ({ manager with registry }, .error fault)
    | (registry, .ok ()) =>
        (⟨registry, manager.plugins.assign plugin.name { plugin := plugin }⟩, .ok ())

/-- The end of `unregister`, from the registry that `teardown` leaves. -/
def remove (manager : PluginManager) (pluginName : String) (registry : HookRegistry) :
    PluginManager :=
  ⟨(registry.unregisterAllByPlugin pluginName).1, manager.plugins.erase pluginName⟩

def unregister (manager : PluginManager) (pluginName : String) :
    PluginManager × Except Fault Unit :=
  match manager.plugins.lookup pluginName with
  | none => (manager, .error (.exception s!"插件 '{pluginName}' 未注册"))
  | some record =>
      match record.plugin.tornDown manager.registry with
      | (registry, .error fault) =>
          if fault.isException then (manager.remove pluginName registry, .ok ())
          else ({ manager with registry }, .error fault)
      | (registry, .ok ()) => (manager.remove pluginName registry, .ok ())

end PluginManager

/-! ## What a failed registration leaves -/

/-- The number of all hooks. -/
def hookCount (registry : HookRegistry) : Nat :=
  (HookType.all.map fun hookType => (registry.hooks hookType).length).sum

theorem hookCount_register (registry : HookRegistry) (hookType : HookType) (handler : HookHandler)
    (priority : Int) (pluginName : String) :
    hookCount (registry.register hookType handler priority pluginName) =
      hookCount registry + 1 := by
  unfold hookCount HookRegistry.register HookType.all
  cases hookType <;> simp <;> omega

/-- The code takes no hook out of the registry. -/
def PluginCode.RegistersOnly : PluginCode → Prop
  | .returns | .raises _ => True
  | .calls (.register ..) next => ∀ registry, (next registry).RegistersOnly
  | .calls _ _ => False

theorem hookCount_le_run {code : PluginCode} (only : code.RegistersOnly)
    (registry : HookRegistry) : hookCount registry ≤ hookCount (code.run registry).1 := by
  induction code generalizing registry with
  | returns => exact Nat.le_refl _
  | raises fault => exact Nat.le_refl _
  | calls call next ih =>
      cases call with
      | register hookType handler priority pluginName =>
          have later := ih (registry.register hookType handler priority pluginName) (only _)
            (registry.register hookType handler priority pluginName)
          rw [hookCount_register] at later
          rw [PluginCode.run, RegistryCall.apply]
          omega
      | unregister => exact only.elim
      | unregisterAllByPlugin => exact only.elim

/-- Code that only registers leaves the registry as it was exactly when it ends at once. -/
theorem run_eq_self_iff {code : PluginCode} (only : code.RegistersOnly)
    (registry : HookRegistry) :
    (code.run registry).1 = registry ↔ code = .returns ∨ ∃ fault, code = .raises fault := by
  cases code with
  | returns => exact iff_of_true rfl (.inl rfl)
  | raises fault => exact iff_of_true rfl (.inr ⟨fault, rfl⟩)
  | calls call next =>
      refine iff_of_false (fun unchanged => ?_) (by simp)
      cases call with
      | register hookType handler priority pluginName =>
          have least := hookCount_le_run (only (registry.register hookType handler priority
            pluginName)) (registry.register hookType handler priority pluginName)
          have same := congrArg hookCount unchanged
          rw [PluginCode.run, RegistryCall.apply] at same
          rw [hookCount_register] at least
          omega
      | unregister => exact only.elim
      | unregisterAllByPlugin => exact only.elim

namespace PluginManager

variable {manager : PluginManager} {plugin : Plugin}

theorem register_of_raises (new : plugin.name ∉ manager.plugins.keys) {fault : Fault}
    (raised : (plugin.setUp manager.registry).2 = .error fault) :
    manager.register plugin =
      ({ manager with registry := (plugin.setUp manager.registry).1 }, .error fault) := by
  unfold register
  rw [if_neg new]
  generalize plugin.setUp manager.registry = left at raised ⊢
  obtain ⟨registry, outcome⟩ := left
  subst raised
  rfl

theorem register_of_returns (new : plugin.name ∉ manager.plugins.keys)
    (returned : (plugin.setUp manager.registry).2 = .ok ()) :
    manager.register plugin =
      (⟨(plugin.setUp manager.registry).1,
        manager.plugins.assign plugin.name { plugin := plugin }⟩, .ok ()) := by
  unfold register
  rw [if_neg new]
  generalize plugin.setUp manager.registry = left at returned ⊢
  obtain ⟨registry, outcome⟩ := left
  subst returned
  rfl

/-- The hooks of a plugin whose `setup` has raised cannot be taken out by its name. -/
theorem unregister_of_raises (new : plugin.name ∉ manager.plugins.keys) {fault : Fault}
    (raised : (plugin.setUp manager.registry).2 = .error fault) :
    (manager.register plugin).1.unregister plugin.name =
      ((manager.register plugin).1, .error (.exception s!"插件 '{plugin.name}' 未注册")) := by
  rw [register_of_raises new raised]
  unfold unregister
  rw [OrderedDict.lookup_eq_none_iff.mpr new]

theorem unregister_of_lookup {name : String} {record : PluginRecord}
    (found : manager.plugins.lookup name = some record)
    (ended : ∀ fault, (record.plugin.tornDown manager.registry).2 = .error fault →
      fault.isException) :
    manager.unregister name =
      (manager.remove name (record.plugin.tornDown manager.registry).1, .ok ()) := by
  unfold unregister
  rw [found]
  dsimp only
  generalize record.plugin.tornDown manager.registry = left at ended ⊢
  obtain ⟨registry, outcome⟩ := left
  cases outcome with
  | error fault => exact if_pos (ended fault rfl)
  | ok done => rfl

end PluginManager

/-! ## Plugins are kept apart -/

/-- A registration that raises leaves no trace, and an unregistration takes out the hooks of the
name and nothing else. -/
structure KeepsApart (manager : PluginManager) (plugin : Plugin) : Prop where
  register_undone : ∀ fault, (manager.register plugin).2 = .error fault →
    (manager.register plugin).1 = manager
  unregister_exact : ∀ name record, manager.plugins.lookup name = some record →
    (∀ fault, (record.plugin.tornDown manager.registry).2 = .error fault → fault.isException) →
    ∃ after, manager.unregister name = (after, .ok ()) ∧
      after.plugins = manager.plugins.erase name ∧
      ∀ hookType, after.registry.hooks hookType =
        ((record.plugin.tornDown manager.registry).1.hooks hookType).filter fun entry =>
          entry.pluginName ≠ name

variable (manager : PluginManager) (plugin : Plugin)

theorem register_undone_iff :
    (∀ fault, (manager.register plugin).2 = .error fault → (manager.register plugin).1 = manager) ↔
      plugin.name ∈ manager.plugins.keys ∨ (plugin.setUp manager.registry).2 = .ok () ∨
        (plugin.setUp manager.registry).1 = manager.registry := by
  by_cases taken : plugin.name ∈ manager.plugins.keys
  · refine iff_of_true (fun fault raised => ?_) (.inl taken)
    unfold PluginManager.register
    rw [if_pos taken]
  · cases ended : (plugin.setUp manager.registry).2 with
    | ok done =>
        refine iff_of_true (fun fault raised => ?_) (.inr (.inl rfl))
        rw [PluginManager.register_of_returns taken ended] at raised
        cases raised
    | error fault =>
        rw [PluginManager.register_of_raises taken ended]
        constructor
        · intro undone
          exact .inr (.inr (congrArg PluginManager.registry (undone fault rfl)))
        · intro condition other _
          have same := (condition.resolve_left taken).resolve_left (by simp)
          rw [same]

/-- A `setup` that only registers hooks has to raise before the first of them. -/
theorem register_undone_iff_of_registersOnly
    (only : (plugin.setup manager.registry).RegistersOnly) :
    (∀ fault, (manager.register plugin).2 = .error fault → (manager.register plugin).1 = manager) ↔
      plugin.name ∈ manager.plugins.keys ∨ (plugin.setUp manager.registry).2 = .ok () ∨
        ∃ fault, plugin.setup manager.registry = .raises fault := by
  rw [register_undone_iff, Plugin.setUp, run_eq_self_iff only]
  refine or_congr_right ⟨?_, ?_⟩
  · rintro (ended | returned | raised)
    · exact .inl ended
    · rw [returned]
      exact .inl rfl
    · exact .inr raised
  · rintro (ended | raised)
    · exact .inl ended
    · exact .inr (.inr raised)

theorem keepsApart_iff : KeepsApart manager plugin ↔
    plugin.name ∈ manager.plugins.keys ∨ (plugin.setUp manager.registry).2 = .ok () ∨
      (plugin.setUp manager.registry).1 = manager.registry := by
  rw [← register_undone_iff]
  constructor
  · exact KeepsApart.register_undone
  · intro undone
    exact ⟨undone, fun name record found ended =>
      ⟨_, PluginManager.unregister_of_lookup found ended, rfl, fun _ => rfl⟩⟩

/-- It registers a hook, and then its `setup` fails. -/
def failing : Plugin where
  name := "audit"
  setup := fun _ =>
    .calls (.register .beforeModelCall (fun _ => .ok .passThrough) 0 "audit") fun _ =>
      .raises (.exception "connection refused")

theorem not_keepsApart_failing : ¬KeepsApart ⟨.empty, []⟩ failing := by
  intro apart
  have undone := apart.register_undone (.exception "connection refused") rfl
  have count := congrArg (fun manager => hookCount manager.registry) undone
  revert count
  exact fun count => absurd (show 1 = 0 from count) (by decide)

end YouMi.Core.Plugins
