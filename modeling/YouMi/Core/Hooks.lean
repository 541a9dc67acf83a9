import YouMi.Core.ToolExecutor
import YouMi.Python.Value
import Mathlib.Algebra.GroupWithZero.Nat
import Mathlib.Data.List.Sort

/-!
# The hook registry

Handlers are kept in the order of their priorities and are asked one after another.  A
handler sees what the earlier ones have modified; the one that blocks is the last that is
asked.  What is returned is the decision of the last handler that has decided, so a
modification is lost as soon as a later handler does not repeat it.
-/

namespace YouMi.Core.Hooks

open YouMi.Library YouMi.Python

/-- `d.update(data)`. -/
def update (d data : Dict) : Dict := data.foldl (fun d entry => d.set entry.1 entry.2) d

theorem lookup_update {d data : Dict} (distinct : data.keys.Nodup) (key : String) :
    (update d data).lookup key = (data.lookup key).or (d.lookup key) := by
  have assigned := OrderedDict.lookup_foldl_assign data Prod.snd distinct d key
  cases given : data.lookup key with
  | none =>
      rw [given] at assigned
      exact assigned
  | some value =>
      rw [given] at assigned
      exact assigned

/-! ## Decisions -/

inductive HookType where
  | beforePromptBuild
  | beforeModelCall
  | afterModelCall
  | beforeToolCall
  | afterToolCall
  | messageReceived
  | messageSending
  deriving DecidableEq

def HookType.all : List HookType :=
  [.beforePromptBuild, .beforeModelCall, .afterModelCall, .beforeToolCall, .afterToolCall,
    .messageReceived, .messageSending]

inductive HookDecisionType where
  | pass
  | modify
  | block
  deriving DecidableEq

structure HookDecision where
  decision : HookDecisionType
  modifiedData : Dict
  reason : String
  distinct : modifiedData.keys.Nodup

namespace HookDecision

def passThrough : HookDecision := ⟨.pass, [], "", List.nodup_nil⟩

def modify (data : Dict) (distinct : data.keys.Nodup) : HookDecision := ⟨.modify, data, "", distinct⟩

def block (reason : String) : HookDecision := ⟨.block, [], reason, List.nodup_nil⟩

end HookDecision

/-- What a handler is given. -/
structure HookContext where
  hookType : HookType
  agentId : String := ""
  agentName : String := ""
  toolName : String := ""
  toolArguments : Dict := []
  extra : Dict := []

/-- The context once data has been merged into `extra`. -/
def HookContext.seeing (context : HookContext) (data : Dict) : HookContext :=
  { context with extra := update context.extra data }

abbrev HookHandler := HookContext → Except Fault HookDecision

/-! ## The registry -/

structure HookEntry where
  handler : HookHandler
  priority : Int := 0
  pluginName : String := ""

structure HookRegistry where
  hooks : HookType → List HookEntry
  sorted : ∀ hookType, (hooks hookType).Pairwise fun first second =>
    first.priority ≤ second.priority

namespace HookRegistry

def empty : HookRegistry := ⟨fun _ => [], fun _ => .nil⟩

/-- Python's sort is stable, as the insertion sort is. -/
def register (registry : HookRegistry) (hookType : HookType) (handler : HookHandler)
    (priority : Int := 0) (pluginName : String := "") : HookRegistry where
  hooks := fun other =>
    if other = hookType then
      (registry.hooks hookType ++ [HookEntry.mk handler priority pluginName]).insertionSort
        fun first second => first.priority ≤ second.priority
    else registry.hooks other
  sorted := by
    intro other
    split
    · have total : Std.Total fun first second : HookEntry => first.priority ≤ second.priority :=
        ⟨fun first second => Int.le_total first.priority second.priority⟩
      have trans : IsTrans HookEntry fun first second => first.priority ≤ second.priority :=
        ⟨fun _ _ _ => Int.le_trans⟩
      exact List.pairwise_insertionSort _ _
    · exact registry.sorted other

/-- `unregister`, where `isHandler` tells the entries of the handler. -/
def unregister (registry : HookRegistry) (hookType : HookType) (isHandler : HookEntry → Bool) :
    HookRegistry where
  hooks := fun other =>
    if other = hookType then (registry.hooks hookType).filter fun entry => !isHandler entry
    else registry.hooks other
  sorted := by
    intro other
    split
    · exact (registry.sorted hookType).filter _
    · exact registry.sorted other

/-- `unregister_all_by_plugin`, with the number of the hooks that were removed. -/
def unregisterAllByPlugin (registry : HookRegistry) (pluginName : String) : HookRegistry × Nat :=
  let kept (hookType : HookType) :=
    (registry.hooks hookType).filter fun entry => entry.pluginName ≠ pluginName
  (⟨kept, fun hookType => (registry.sorted hookType).filter _⟩,
    (HookType.all.map fun hookType =>
      (registry.hooks hookType).length - (kept hookType).length).sum)

def hasHooks (registry : HookRegistry) (hookType : HookType) : Bool :=
  !(registry.hooks hookType).isEmpty

end HookRegistry

/-- A handler is asked, and this comes back. -/
structure HookCall where
  entry : HookEntry
  context : HookContext
  outcome : Except Fault HookDecision

/-- The calls of the handlers, with what is returned in the end. -/
abbrev HookRun := List HookCall × Except Fault HookDecision

/-- The loop of `invoke`, from the decision that is the last so far. -/
def invokeEach : List HookEntry → HookContext → HookDecision → HookRun
  | [], _, lastDecision => ([], .ok lastDecision)
  | entry :: rest, context, lastDecision =>
      let call : HookCall := ⟨entry, context, entry.handler context⟩
      match entry.handler context with
      | .error fault =>
          if fault.isException then
            let later := invokeEach rest context lastDecision
            (call :: later.1, later.2)
          else ([call], .error fault)
      | .ok decision =>
          match decision.decision with
          | .block => ([call], .ok decision)
          | .modify =>
              let later := invokeEach rest (context.seeing decision.modifiedData) decision
              (call :: later.1, later.2)
          | .pass =>
              let later := invokeEach rest context decision
              (call :: later.1, later.2)

def HookRegistry.invoke (registry : HookRegistry) (hookType : HookType) (context : HookContext) :
    HookRun :=
  invokeEach (registry.hooks hookType) context .passThrough

/-! ## Before a tool call -/

/-- What the executor of tools makes of a decision. -/
def HookDecision.seen (decision : HookDecision) : Core.HookDecision :=
  match decision.decision with
  | .pass => .pass
  | .modify => .modify
  | .block => .block decision.reason

/-- The arguments that the tool is run with after the decision. -/
def HookDecision.arguments (decision : HookDecision) (arguments : Dict) : PyVal :=
  if decision.decision = .modify then
    (decision.modifiedData.lookup "tool_arguments").getD (.dict arguments)
  else .dict arguments

def toolContext (agentId agentName name : String) (arguments : Dict) : HookContext where
  hookType := .beforeToolCall
  agentId := agentId
  agentName := agentName
  toolName := name
  toolArguments := arguments

namespace HookRegistry

/-- The decision before a tool call. -/
def beforeToolCall (registry : HookRegistry) (context : HookContext) : Except Fault HookDecision :=
  if registry.hasHooks .beforeToolCall then (registry.invoke .beforeToolCall context).2
  else .ok .passThrough

/-- What the call meets, given what it meets when it is run with some arguments. -/
def toolUse (registry : HookRegistry) (context : HookContext) (world : PyVal → ToolUse) : ToolUse :=
  match registry.beforeToolCall context with
  | .error fault => { world (.dict context.toolArguments) with beforeToolCall := .error fault }
  | .ok decision =>
      { world (decision.arguments context.toolArguments) with beforeToolCall := .ok decision.seen }

end HookRegistry

/-- `_execute_tool_call` with the hooks there are. -/
def executeToolCall (registry : HookRegistry) (agentId agentName : String)
    (conversation : List Message) (name toolCallId : String) (arguments : Dict)
    (world : PyVal → ToolUse) : List Message × Except Fault ActionResult :=
  Core.executeToolCall conversation name toolCallId
    (registry.toolUse (toolContext agentId agentName name arguments) world)

end YouMi.Core.Hooks
