import YouMi.Coordinator.Planner
import YouMi.Core.Tool
import YouMi.Mcp.DictDiff
import YouMi.Memory.Sessions

/-!
# The configuration of a sub-agent

`create_sub_agent` reads the configuration file of an agent type, or builds a
configuration of its own where there is no file.  On both ways `AgentConfig` checks
each field it is given, ignores the names it does not know and fills in the rest.
Objects of the nested models stand for their fields.
-/

namespace YouMi.Coordinator

open YouMi.Library YouMi.Mcp YouMi.Memory YouMi.Python YouMi.Python.PyVal

/-! ## `AgentConfig` -/

inductive ConfigField where
  | agentId
  | name
  | systemPrompt
  | llmConfig
  | memoryConfig
  | maxIterations
  | retryPolicy
  | allowedSkills
  | allowedTools
  | tools
  | toolDiscovery
  | handoff
  | metadata
  | extra
  | env
  deriving DecidableEq, Repr

namespace ConfigField

def key : ConfigField → String
  | .agentId => "agent_id"
  | .name => "name"
  | .systemPrompt => "system_prompt"
  | .llmConfig => "llm_config"
  | .memoryConfig => "memory_config"
  | .maxIterations => "max_iterations"
  | .retryPolicy => "retry_policy"
  | .allowedSkills => "allowed_skills"
  | .allowedTools => "allowed_tools"
  | .tools => "tools"
  | .toolDiscovery => "tool_discovery"
  | .handoff => "handoff"
  | .metadata => "metadata"
  | .extra => "extra"
  | .env => "env"

def all : List ConfigField :=
  [.agentId, .name, .systemPrompt, .llmConfig, .memoryConfig, .maxIterations, .retryPolicy,
    .allowedSkills, .allowedTools, .tools, .toolDiscovery, .handoff, .metadata, .extra, .env]

theorem mem_all (field : ConfigField) : field ∈ all := by
  cases field <;> decide

theorem key_injective {first second : ConfigField} (same : first.key = second.key) :
    first = second :=
  List.inj_on_of_nodup_map (by decide : (all.map key).Nodup) (mem_all first) (mem_all second) same

end ConfigField

abbrev AgentConfig := ConfigField → PyVal

/-- What `load_agent_config` does for a role. -/
inductive LoadedConfig where
  /-- A `FileNotFoundError`. -/
  | missing
  /-- Any other exception, also where the file is no dictionary. -/
  | raises
  | data (file : Dict)

/-- The part of a master that sub-agents are made from, with the constructors it calls. -/
structure SubAgentMaker where
  llmConfig : PyVal
  memoryConfig : PyVal
  extra : Dict
  env : String
  /-- Whether the master has an LLM client. -/
  hasClient : Bool
  loadAgentConfig : String → LoadedConfig
  /-- The value of a field for the one that is given, if it passes validation; a dictionary
  given for a nested model is read as the model's fields. -/
  validate : ConfigField → PyVal → Option PyVal
  /-- The prompt is a text. -/
  validate_prompt : ∀ {given read}, validate .systemPrompt given = some read →
    ∃ text, read = .str text
  /-- What the default factory of a nested model makes. -/
  made : ConfigField → PyVal
  /-- Whether `Agent(config)` returns. -/
  agentStarts : AgentConfig → Bool
  /-- Whether `LLMClient(config)` returns. -/
  clientStarts : PyVal → Bool

/-- The arguments of `create_sub_agent`, with the id a configuration would make. -/
structure SubAgentRequest where
  role : String
  name : String
  systemPrompt : String
  task : String
  allowedTools : Option (List String)
  env : String
  configOverrides : Dict
  distinct : configOverrides.keys.Nodup
  isolated : Bool
  freshId : String

inductive ClientChoice where
  | none
  /-- The client of the master. -/
  | shared
  | dedicated (llm : PyVal)

structure SubAgentRecord where
  config : AgentConfig
  client : ClientChoice
  role : String
  task : String
  isolated : Bool

namespace SubAgentRequest

def agentName (req : SubAgentRequest) : String := if req.name = "" then req.role else req.name

/-- `_TASK_BRIEF_TEMPLATE.format(task=task[:500])` -/
def taskBrief (req : SubAgentRequest) : String :=
  "\n\n---\n## 任务简报\n你的任务: " ++ first500 req.task ++
    "\n\n### 自检提醒\n在开始工作前，请先评估你当前可用的工具是否足以完成任务。\n" ++
    "如果工具不足，请尽力使用已有工具完成，必要时可以通过消息总线申请扩展工具。\n\n" ++
    "### 工作方式（必须遵守）\n- 你的迭代轮次有限：优先收集完成任务所需的核心信息，不要穷举所有来源。\n" ++
    "- 信息足够后立即输出最终结果文本结束任务；不确定的信息明确标注即可，不要为次要细节继续调研。\n" ++
    "- 对返回错误、404 或内容无关的来源，不要反复重试或继续尝试同类 URL。\n"

/-- The prompt of an agent type without a file. -/
def builtInPrompt (req : SubAgentRequest) : String :=
  if req.systemPrompt ≠ "" then req.systemPrompt
  else
    "你是一个专业的 " ++ req.role ++ " Agent。\n你的具体任务：" ++ req.task ++
      "\n\n要求：\n- 始终围绕上述任务进行回复和工作\n- 以 " ++ req.role ++ " 的专业视角分析和输出\n" ++
      "- 回复要有条理、具体、可执行\n" ++
      "- 信息足够后立即输出最终结果结束任务，不要无限扩展调研范围\n- 用中文简洁回复"

/-- The value of a field with the task brief in the prompt. -/
def briefed (req : SubAgentRequest) (field : ConfigField) (value : PyVal) : PyVal :=
  if field = .systemPrompt ∧ req.task ≠ "" ∧ req.isolated = false then
    match value with
    | .str prompt => .str (prompt ++ req.taskBrief)
    | other => other
  else value

end SubAgentRequest

/-- A list of tool names. -/
def toolList (names : List String) : PyVal := .list (names.map .str)

namespace SubAgentMaker

/-- The default of a field. -/
def default (m : SubAgentMaker) (freshId : String) : ConfigField → PyVal
  | .agentId => .str freshId
  | .name => .str "Agent"
  | .systemPrompt => .str ""
  | .maxIterations => .int 20
  | .allowedSkills => .list []
  | .allowedTools => .list []
  | .extra => .dict []
  | .env => .str ""
  | field => m.made field

/-- A field of `AgentConfig(**keywords)`. -/
def readField (m : SubAgentMaker) (freshId : String) (keywords : Dict) (field : ConfigField) :
    Option PyVal :=
  match keywords.lookup field.key with
  | some given => m.validate field given
  | none => some (m.default freshId field)

/-- `AgentConfig(**keywords)`; `none` where it raises. -/
def agentConfig (m : SubAgentMaker) (freshId : String) (keywords : Dict) : Option AgentConfig :=
  if ConfigField.all.all fun field => (m.readField freshId keywords field).isSome then
    some fun field => (m.readField freshId keywords field).getD .null
  else none

/-- `LLMConfig(**data)`, `MemoryConfig(**data)` and `AgentMetadata(**data)`. -/
def construct (m : SubAgentMaker) (field : ConfigField) : PyVal → Option PyVal
  | .dict data => m.validate field (.dict data)
  | _ => none

/-- `(extra or {}).get("sub_agent_llm_config") or None` -/
def subLlmDefault (m : SubAgentMaker) : Option PyVal :=
  (m.extra.lookup "sub_agent_llm_config").filter truthy

/-- `config.get("api_key") or config.get("base_url")` -/
def usable (llm : Dict) : Bool :=
  truthy ((llm.lookup "api_key").getD .null) || truthy ((llm.lookup "base_url").getD .null)

/-- The keywords that are given beside the data of a file. -/
def reserved : List String := ["name", "llm_config", "memory_config", "metadata", "env"]

/-- The data of a file under the arguments and the overrides. -/
def fileData (req : SubAgentRequest) (file : Dict) : Dict :=
  let data := (((file.pop "llm_config").pop "memory_config").pop "metadata").pop "name"
  let data :=
    if req.systemPrompt ≠ "" then data.set "system_prompt" (.str req.systemPrompt) else data
  let data :=
    match req.allowedTools with
    | some names => data.set "allowed_tools" (toolList names)
    | none => data
  update data req.configOverrides

/-- The LLM configuration of a file, or the default of the master. -/
def fileLlm (m : SubAgentMaker) : PyVal → Option PyVal
  | .dict llm =>
      if usable llm then m.construct .llmConfig (.dict llm)
      else
        match m.subLlmDefault with
        | some given => m.construct .llmConfig given
        | none => m.construct .llmConfig (.dict llm)
  | _ => none

def envOf (m : SubAgentMaker) (req : SubAgentRequest) : String :=
  if req.env = "" then m.env else req.env

/-- The configuration of an agent type with a file; `none` where it raises. -/
def fromFile (m : SubAgentMaker) (req : SubAgentRequest) (file : Dict) : Option AgentConfig :=
  let data := fileData req file
  (m.fileLlm ((file.lookup "llm_config").getD (.dict []))).bind fun llm =>
    (m.construct .memoryConfig ((file.lookup "memory_config").getD (.dict []))).bind fun memory =>
      (m.construct .metadata ((file.lookup "metadata").getD (.dict []))).bind fun metadata =>
        -- A keyword may not be given twice.
        if data.keys.any (· ∈ reserved) then none
        else
          m.agentConfig req.freshId
            ([("name", .str req.agentName), ("llm_config", llm), ("memory_config", memory),
              ("metadata", metadata), ("env", .str (m.envOf req))] ++ data)

/-- The configuration of an agent type without a file; `none` where it raises. -/
def builtIn (m : SubAgentMaker) (req : SubAgentRequest) : Option AgentConfig :=
  let llm :=
    match m.subLlmDefault with
    | some given => m.construct .llmConfig given
    | none => some m.llmConfig
  llm.bind fun llm =>
    (m.construct .metadata (.dict [("display_name", .str req.agentName), ("role", .str req.role),
        ("description", .str ("由 MasterAgent 创建的 " ++ req.role ++ " Agent"))])).bind
      fun metadata =>
        m.agentConfig req.freshId
          [("name", .str req.agentName), ("system_prompt", .str req.builtInPrompt),
            ("llm_config", llm), ("memory_config", m.memoryConfig),
            ("allowed_tools", toolList (req.allowedTools.getD [])),
            ("env", .str (m.envOf req)), ("metadata", metadata)]

/-- The client a sub-agent is given; `none` where it raises. -/
def chooseClient (m : SubAgentMaker) (req : SubAgentRequest) (config : AgentConfig) :
    Option ClientChoice :=
  if req.isolated then some .none
  else
    match config .llmConfig with
    | .dict llm =>
        if usable llm then
          if m.hasClient && pyEq (.dict llm) m.llmConfig then some .shared
          else if m.clientStarts (.dict llm) then some (.dedicated (.dict llm))
          else none
        else some (if m.hasClient then .shared else .none)
    | _ => none

/-- The configuration before the task brief; `none` where it raises. -/
def configFor (m : SubAgentMaker) (req : SubAgentRequest) : Option AgentConfig :=
  match m.loadAgentConfig req.role with
  | .raises => none
  | .data file => m.fromFile req file
  | .missing => m.builtIn req

/-- `create_sub_agent`: the record it registers; `none` where it raises. -/
def createSubAgent (m : SubAgentMaker) (req : SubAgentRequest) : Option SubAgentRecord :=
  (m.configFor req).bind fun config =>
    let config : AgentConfig := fun field => req.briefed field (config field)
    if m.agentStarts config then
      (m.chooseClient req config).map fun client =>
        ⟨config, client, req.role, req.task, req.isolated⟩
    else none

end SubAgentMaker

/-! ## The plan executor -/

/-- The overrides that `_execute_step` passes for a step. -/
def stepOverrides (configOverrides : Dict) (maxIterations : Int) : Dict :=
  if configOverrides ≠ [] ∨ maxIterations ≠ 20 then
    configOverrides.set "max_iterations" (.int maxIterations)
  else configOverrides

theorem nodup_stepOverrides {configOverrides : Dict} (distinct : configOverrides.keys.Nodup)
    (maxIterations : Int) : (stepOverrides configOverrides maxIterations).keys.Nodup := by
  unfold stepOverrides
  split
  · exact Dict.nodup_keys_set distinct
  · exact distinct

/-- The sub-agent that `_execute_step` asks for. -/
def FullStep.request {F : Type} (step : FullStep F) (distinct : step.configOverrides.keys.Nodup)
    (freshId : String) : SubAgentRequest where
  role := step.role
  name := if step.name = "" then step.role else step.name
  systemPrompt := step.systemPrompt
  task := step.task
  allowedTools := step.allowedTools
  env := step.env
  configOverrides := stepOverrides step.configOverrides step.maxIterations
  distinct := nodup_stepOverrides distinct step.maxIterations
  isolated := false
  freshId := freshId

/-! ## The fields of a configuration -/

namespace SubAgentMaker

variable (m : SubAgentMaker) (req : SubAgentRequest)

/-- What the arguments give for a field of a file. -/
def argument (req : SubAgentRequest) (key : String) : Option PyVal :=
  if key = "system_prompt" then
    if req.systemPrompt ≠ "" then some (.str req.systemPrompt) else none
  else if key = "allowed_tools" then req.allowedTools.map toolList
  else none

/-- What is given for a field: by the overrides, else by the arguments, else by the file. -/
def given (req : SubAgentRequest) (file : Dict) (key : String) : Option PyVal :=
  (req.configOverrides.lookup key).or ((argument req key).or (file.lookup key))

/-- The fields of an agent type with a file. -/
def fileFields (file : Dict) : ConfigField → Option PyVal
  | .name => m.validate .name (.str req.agentName)
  | .llmConfig =>
      (m.fileLlm ((file.lookup "llm_config").getD (.dict []))).bind (m.validate .llmConfig)
  | .memoryConfig =>
      (m.construct .memoryConfig ((file.lookup "memory_config").getD (.dict []))).bind
        (m.validate .memoryConfig)
  | .metadata =>
      (m.construct .metadata ((file.lookup "metadata").getD (.dict []))).bind
        (m.validate .metadata)
  | .env => m.validate .env (.str (m.envOf req))
  | field =>
      match given req file field.key with
      | some value => m.validate field value
      | none => some (m.default req.freshId field)

/-- The fields of an agent type without a file; the overrides are not among them. -/
def builtInFields : ConfigField → Option PyVal
  | .name => m.validate .name (.str req.agentName)
  | .systemPrompt => m.validate .systemPrompt (.str req.builtInPrompt)
  | .llmConfig =>
      (match m.subLlmDefault with
        | some given => m.construct .llmConfig given
        | none => some m.llmConfig).bind (m.validate .llmConfig)
  | .memoryConfig => m.validate .memoryConfig m.memoryConfig
  | .allowedTools => m.validate .allowedTools (toolList (req.allowedTools.getD []))
  | .metadata =>
      (m.construct .metadata (.dict [("display_name", .str req.agentName), ("role", .str req.role),
        ("description", .str ("由 MasterAgent 创建的 " ++ req.role ++ " Agent"))])).bind
          (m.validate .metadata)
  | .env => m.validate .env (.str (m.envOf req))
  | field => some (m.default req.freshId field)

theorem agentConfig_eq_some_iff {freshId : String} {keywords : Dict} {config : AgentConfig} :
    m.agentConfig freshId keywords = some config ↔
      ∀ field, m.readField freshId keywords field = some (config field) := by
  have checked : (ConfigField.all.all fun field => (m.readField freshId keywords field).isSome) =
      true ↔ ∀ field, (m.readField freshId keywords field).isSome = true := by
    rw [List.all_eq_true]
    exact ⟨fun all field => all field (ConfigField.mem_all field), fun all field _ => all field⟩
  unfold agentConfig
  constructor
  · intro made field
    rw [Option.ite_none_right_eq_some, checked] at made
    obtain ⟨value, found⟩ := Option.isSome_iff_exists.mp (made.1 field)
    rw [← Option.some.inj made.2]
    simp [found]
  · intro read
    rw [Option.ite_none_right_eq_some, checked]
    refine ⟨fun field => by rw [read field]; rfl, congrArg some (funext fun field => ?_)⟩
    rw [read field]
    rfl

/-- A configuration that needs a value first: without the value one of its fields is missing. -/
theorem bind_eq_some_iff_fields {first : Option PyVal} {rest : PyVal → Option AgentConfig}
    {fields : ConfigField → Option PyVal} {config : AgentConfig} (field : ConfigField)
    (missing : first = none → fields field = none)
    (others : ∀ value, first = some value →
      (rest value = some config ↔ ∀ field, fields field = some (config field))) :
    first.bind rest = some config ↔ ∀ field, fields field = some (config field) := by
  cases found : first with
  | none =>
      constructor
      · intro made
        cases made
      · intro all
        have here := all field
        rw [missing found] at here
        cases here
  | some value => exact others value found

theorem builtIn_eq_some_iff {config : AgentConfig} :
    m.builtIn req = some config ↔ ∀ field, m.builtInFields req field = some (config field) := by
  unfold builtIn
  dsimp only
  refine bind_eq_some_iff_fields .llmConfig (fun none => ?_) fun llm llm_eq => ?_
  · rw [builtInFields, none, Option.bind_none]
  refine bind_eq_some_iff_fields .metadata (fun none => ?_) fun metadata metadata_eq => ?_
  · rw [builtInFields, none, Option.bind_none]
  rw [agentConfig_eq_some_iff]
  refine forall_congr' fun field => ?_
  cases field <;>
    simp [readField, builtInFields, ConfigField.key, List.lookup_cons, default, llm_eq, metadata_eq]

/-! ## The data of a file -/

theorem lookup_fileData (file : Dict) (key : String) :
    (fileData req file).lookup key =
      (req.configOverrides.lookup key).or ((argument req key).or
        (if key ∈ ["llm_config", "memory_config", "metadata", "name"] then none
          else file.lookup key)) := by
  have popped : ((((file.pop "llm_config").pop "memory_config").pop "metadata").pop "name").lookup
      key = if key ∈ ["llm_config", "memory_config", "metadata", "name"] then none
        else file.lookup key := by
    simp only [Dict.pop_eq_erase, OrderedDict.lookup_erase]
    by_cases llm : key = "llm_config" <;> by_cases memory : key = "memory_config" <;>
      by_cases metadata : key = "metadata" <;> by_cases name : key = "name" <;>
        simp [llm, memory, metadata, name]
  unfold fileData
  rw [lookup_update req.distinct]
  congr 1
  rw [← popped]
  generalize (((file.pop "llm_config").pop "memory_config").pop "metadata").pop "name" = data
  unfold argument
  by_cases prompt : key = "system_prompt"
  · subst prompt
    have other (d : Dict) (names : List String) :
        (d.set "allowed_tools" (toolList names)).lookup "system_prompt" =
          d.lookup "system_prompt" := Dict.lookup_set_ne (by decide)
    cases req.allowedTools <;> by_cases empty : req.systemPrompt = "" <;>
      simp [empty, other, Dict.lookup_set_self]
  · have other (d : Dict) (text : String) :
        (d.set "system_prompt" (.str text)).lookup key = d.lookup key := Dict.lookup_set_ne prompt
    by_cases tools : key = "allowed_tools"
    · subst tools
      cases req.allowedTools <;> by_cases empty : req.systemPrompt = "" <;>
        simp [empty, other, Dict.lookup_set_self]
    · have another (d : Dict) (names : List String) :
          (d.set "allowed_tools" (toolList names)).lookup key = d.lookup key :=
        Dict.lookup_set_ne tools
      cases req.allowedTools <;> by_cases empty : req.systemPrompt = "" <;>
        simp [empty, other, another, prompt, tools]

/-- A field that is not reserved has what is given for it. -/
theorem lookup_fileData_of_unreserved (file : Dict) {field : ConfigField}
    (unreserved : field.key ∉ reserved) :
    (fileData req file).lookup field.key = given req file field.key := by
  have kept : field.key ∉ ["llm_config", "memory_config", "metadata", "name"] := by
    intro member
    simp only [List.mem_cons, List.not_mem_nil, or_false] at member
    apply unreserved
    simp only [reserved, List.mem_cons, List.not_mem_nil, or_false]
    tauto
  rw [lookup_fileData, if_neg kept]
  rfl

/-- The keywords are given once. -/
theorem any_reserved_iff (file : Dict) :
    (fileData req file).keys.any (· ∈ reserved) = false ↔
      (∀ key ∈ req.configOverrides.keys, key ∉ reserved) ∧ "env" ∉ file.keys := by
  have present (key : String) : key ∈ (fileData req file).keys ↔
      ((req.configOverrides.lookup key).or ((argument req key).or
        (if key ∈ ["llm_config", "memory_config", "metadata", "name"] then none
          else file.lookup key))).isSome = true := by
    rw [← Dict.lookup_isSome_iff_mem_keys, lookup_fileData]
  rw [List.any_eq_false]
  constructor
  · intro clear
    refine ⟨fun key member inside => ?_, fun member => ?_⟩
    · rw [← Dict.lookup_isSome_iff_mem_keys] at member
      refine clear key ((present key).mpr ?_) (by simpa using inside)
      rw [Option.isSome_or, member, Bool.true_or]
    · rw [← Dict.lookup_isSome_iff_mem_keys] at member
      refine clear "env" ((present "env").mpr ?_) (by decide)
      rw [Option.isSome_or, Option.isSome_or, if_neg (by decide), member, Bool.or_true,
        Bool.or_true]
  · rintro ⟨overrides, env⟩ key member inside
    have inside : key ∈ reserved := by simpa using inside
    have notOverridden : req.configOverrides.lookup key = none :=
      Dict.lookup_eq_none_iff_not_mem.mpr fun member => overrides key member inside
    rw [present, notOverridden, Option.none_or] at member
    simp only [reserved, List.mem_cons, List.not_mem_nil, or_false] at inside
    rcases inside with rfl | rfl | rfl | rfl | rfl <;>
      simp [argument, Dict.lookup_eq_none_iff_not_mem.mpr env] at member

theorem fromFile_eq_some_iff {file : Dict} {config : AgentConfig} :
    m.fromFile req file = some config ↔
      ((∀ key ∈ req.configOverrides.keys, key ∉ reserved) ∧ "env" ∉ file.keys) ∧
        ∀ field, m.fileFields req file field = some (config field) := by
  unfold fromFile
  dsimp only
  rw [← any_reserved_iff]
  cases clash : (fileData req file).keys.any (· ∈ reserved) with
  | true =>
      refine ⟨fun made => ?_, fun impossible => absurd impossible.1 (by simp)⟩
      simp at made
  | false =>
      rw [eq_self_iff_true, true_and]
      refine bind_eq_some_iff_fields .llmConfig (fun none => ?_) fun llm llm_eq => ?_
      · rw [fileFields, none, Option.bind_none]
      refine bind_eq_some_iff_fields .memoryConfig (fun none => ?_) fun memory memory_eq => ?_
      · rw [fileFields, none, Option.bind_none]
      refine bind_eq_some_iff_fields .metadata (fun none => ?_) fun metadata metadata_eq => ?_
      · rw [fileFields, none, Option.bind_none]
      rw [if_neg Bool.false_ne_true, agentConfig_eq_some_iff]
      refine forall_congr' fun field => ?_
      have data := @lookup_fileData_of_unreserved req file field
      cases field <;>
        simp [reserved, ConfigField.key] at data <;>
        simp [readField, fileFields, ConfigField.key, List.lookup_cons, llm_eq, memory_eq,
          metadata_eq, data]

/-! ## What is in force -/

/-- The configuration has what a field reads from a value, with the task brief in the prompt. -/
def InForce (field : ConfigField) (value : PyVal) (config : AgentConfig) : Prop :=
  ∃ read, m.validate field value = some read ∧ config field = req.briefed field read

/-- All overrides are in force, and so are the allowed tools unless they are overridden. -/
structure Reflects (config : AgentConfig) : Prop where
  overrides : ∀ entry ∈ req.configOverrides,
    ∃ field, ConfigField.key field = entry.1 ∧ m.InForce req field entry.2 config
  allowedTools : ∀ names, req.allowedTools = some names →
    "allowed_tools" ∉ req.configOverrides.keys → m.InForce req .allowedTools (toolList names) config

def KeepsOverrides : Prop :=
  ∃ record, m.createSubAgent req = some record ∧ m.Reflects req record.config

/-- The fields are valid, and an agent and its client can be made of them. -/
def Ready (fields : ConfigField → Option PyVal) : Prop :=
  ∃ config : AgentConfig, (∀ field, fields field = some (config field)) ∧
    m.agentStarts (fun field => req.briefed field (config field)) = true ∧
    (m.chooseClient req fun field => req.briefed field (config field)).isSome = true

/-- When the overrides are kept.  With a file they must be fields that are not given beside the
data of the file; without one they must be what the field has anyway. -/
def Meets : Prop :=
  match m.loadAgentConfig req.role with
  | .raises => False
  | .data file =>
      (∀ key ∈ req.configOverrides.keys, ∃ field, ConfigField.key field = key ∧ key ∉ reserved) ∧
        "env" ∉ file.keys ∧ m.Ready req (m.fileFields req file)
  | .missing =>
      (∀ entry ∈ req.configOverrides, ∃ field, ConfigField.key field = entry.1 ∧
        m.validate field entry.2 = m.builtInFields req field) ∧ m.Ready req (m.builtInFields req)

theorem createSubAgent_eq_some_iff {record : SubAgentRecord} :
    m.createSubAgent req = some record ↔
      ∃ config client, m.configFor req = some config ∧
        m.agentStarts (fun field => req.briefed field (config field)) = true ∧
        (m.chooseClient req fun field => req.briefed field (config field)) = some client ∧
        record = ⟨fun field => req.briefed field (config field), client, req.role, req.task,
          req.isolated⟩ := by
  unfold createSubAgent
  rw [Option.bind_eq_some_iff]
  constructor
  · rintro ⟨config, found, made⟩
    dsimp only at made
    rw [Option.ite_none_right_eq_some, Option.map_eq_some_iff] at made
    obtain ⟨starts, client, chosen, rfl⟩ := made
    exact ⟨config, client, found, starts, chosen, rfl⟩
  · rintro ⟨config, client, found, starts, chosen, rfl⟩
    refine ⟨config, found, ?_⟩
    dsimp only
    rw [if_pos starts, chosen]
    rfl

/-- A sub-agent is made of the fields that are ready. -/
theorem exists_createSubAgent_of_ready {config : AgentConfig}
    (found : m.configFor req = some config)
    (starts : m.agentStarts (fun field => req.briefed field (config field)) = true)
    (chosen : (m.chooseClient req fun field => req.briefed field (config field)).isSome = true) :
    ∃ record, m.createSubAgent req = some record ∧
      record.config = fun field => req.briefed field (config field) := by
  obtain ⟨client, chosen⟩ := Option.isSome_iff_exists.mp chosen
  exact ⟨_, (m.createSubAgent_eq_some_iff req).mpr
    ⟨config, client, found, starts, chosen, rfl⟩, rfl⟩

/-- The brief is the same text after every prompt. -/
theorem briefed_injective {field : ConfigField} {given given' first second : PyVal}
    (read : m.validate field given = some first) (read' : m.validate field given' = some second)
    (same : req.briefed field first = req.briefed field second) : first = second := by
  unfold SubAgentRequest.briefed at same
  split at same
  · rename_i prompt
    rw [prompt.1] at read read'
    obtain ⟨text, rfl⟩ := m.validate_prompt read
    obtain ⟨text', rfl⟩ := m.validate_prompt read'
    have texts : text ++ req.taskBrief = text' ++ req.taskBrief := PyVal.str.inj same
    rw [String.append_left_inj] at texts
    rw [texts]
  · exact same

/-- What is given for a field of a file is in force, if it is not given beside the data. -/
theorem inForce_of_given {file : Dict} {config : AgentConfig} {field : ConfigField} {value : PyVal}
    (fields : ∀ field, m.fileFields req file field = some (config field))
    (unreserved : field.key ∉ reserved) (found : given req file field.key = some value) :
    m.InForce req field value fun field => req.briefed field (config field) := by
  have here := fields field
  have read : m.fileFields req file field = m.validate field value := by
    cases field <;>
      first
        | exact absurd (by decide) unreserved
        | (rw [fileFields.eq_def]; simp only [found])
  rw [read] at here
  exact ⟨config field, here, rfl⟩

section OnePath

variable {m req}

theorem keepsOverrides_iff_of_data {file : Dict}
    (loaded : m.loadAgentConfig req.role = .data file) :
    m.KeepsOverrides req ↔
      (∀ key ∈ req.configOverrides.keys, ∃ field, ConfigField.key field = key ∧ key ∉ reserved) ∧
        "env" ∉ file.keys ∧ m.Ready req (m.fileFields req file) := by
  have path : m.configFor req = m.fromFile req file := by rw [configFor, loaded]
  constructor
  · rintro ⟨record, made, reflects⟩
    obtain ⟨config, client, found, starts, chosen, rfl⟩ :=
      (m.createSubAgent_eq_some_iff req).mp made
    rw [path, fromFile_eq_some_iff] at found
    obtain ⟨⟨unreserved, env⟩, fields⟩ := found
    refine ⟨fun key member => ?_, env, config, fields, starts, by rw [chosen]; rfl⟩
    obtain ⟨entry, inside, rfl⟩ := List.mem_map.mp member
    obtain ⟨field, key, _⟩ := reflects.overrides entry inside
    exact ⟨field, key, unreserved _ member⟩
  · rintro ⟨known, env, config, fields, starts, chosen⟩
    have unreserved : ∀ key ∈ req.configOverrides.keys, key ∉ reserved := fun key member =>
      (known key member).elim fun _ found => found.2
    have found : m.configFor req = some config :=
      path.trans ((m.fromFile_eq_some_iff req).mpr ⟨⟨unreserved, env⟩, fields⟩)
    obtain ⟨record, made, shape⟩ := m.exists_createSubAgent_of_ready req found starts chosen
    refine ⟨record, made, fun entry member => ?_, fun names allowed absent => ?_⟩
    · have key := List.mem_map_of_mem (f := Prod.fst) member
      obtain ⟨field, same, free⟩ := known entry.1 key
      refine ⟨field, same, ?_⟩
      rw [shape]
      refine m.inForce_of_given req fields (same ▸ free) ?_
      rw [given, same, Dict.lookup_eq_some_of_mem req.distinct member]
      rfl
    · rw [shape]
      refine m.inForce_of_given req fields (by decide) ?_
      have missing : req.configOverrides.lookup "allowed_tools" = none :=
        Dict.lookup_eq_none_iff_not_mem.mpr absent
      simp [given, argument, ConfigField.key, missing, allowed]

theorem keepsOverrides_iff_of_missing (loaded : m.loadAgentConfig req.role = .missing) :
    m.KeepsOverrides req ↔
      (∀ entry ∈ req.configOverrides, ∃ field, ConfigField.key field = entry.1 ∧
        m.validate field entry.2 = m.builtInFields req field) ∧
        m.Ready req (m.builtInFields req) := by
  have path : m.configFor req = m.builtIn req := by rw [configFor, loaded]
  constructor
  · rintro ⟨record, made, reflects⟩
    obtain ⟨config, client, found, starts, chosen, rfl⟩ :=
      (m.createSubAgent_eq_some_iff req).mp made
    rw [path, builtIn_eq_some_iff] at found
    refine ⟨fun entry member => ?_, config, found, starts, by rw [chosen]; rfl⟩
    obtain ⟨field, key, read, valid, same⟩ := reflects.overrides entry member
    refine ⟨field, key, ?_⟩
    rw [valid, found field]
    by_cases prompt : field = .systemPrompt
    · subst prompt
      have builtIn := found .systemPrompt
      rw [builtInFields] at builtIn
      exact congrArg some (m.briefed_injective req valid builtIn same.symm)
    · have plain (value : PyVal) : req.briefed field value = value := by
        unfold SubAgentRequest.briefed
        exact if_neg fun all => prompt all.1
      have same : req.briefed field (config field) = req.briefed field read := same
      rw [plain, plain] at same
      rw [same]
  · rintro ⟨known, config, fields, starts, chosen⟩
    have found : m.configFor req = some config :=
      path.trans ((m.builtIn_eq_some_iff req).mpr fields)
    obtain ⟨record, made, shape⟩ := m.exists_createSubAgent_of_ready req found starts chosen
    refine ⟨record, made, fun entry member => ?_, fun names allowed _ => ?_⟩
    · obtain ⟨field, key, same⟩ := known entry member
      refine ⟨field, key, config field, same.trans (fields field), ?_⟩
      rw [shape]
    · have tools := fields .allowedTools
      rw [builtInFields, allowed, Option.getD_some] at tools
      exact ⟨config .allowedTools, tools, by rw [shape]⟩

end OnePath

/-- Without a file, every sub-agent has the default number of iterations. -/
theorem maxIterations_of_missing {record : SubAgentRecord}
    (loaded : m.loadAgentConfig req.role = .missing)
    (made : m.createSubAgent req = some record) : record.config .maxIterations = .int 20 := by
  obtain ⟨config, _, found, _, _, rfl⟩ := (m.createSubAgent_eq_some_iff req).mp made
  rw [configFor, loaded] at found
  have field := (m.builtIn_eq_some_iff req).mp found .maxIterations
  exact (Option.some.inj field).symm

/-- With a file, the number of iterations that the executor passes for a step is in force. -/
theorem maxIterations_of_step {F : Type} (step : FullStep F)
    (distinct : step.configOverrides.keys.Nodup) (freshId : String) {file : Dict}
    {record : SubAgentRecord} (loaded : m.loadAgentConfig step.role = .data file)
    (passed : step.configOverrides ≠ [] ∨ step.maxIterations ≠ 20)
    (made : m.createSubAgent (step.request distinct freshId) = some record) :
    m.InForce (step.request distinct freshId) .maxIterations (.int step.maxIterations)
      record.config := by
  obtain ⟨config, _, found, _, _, rfl⟩ :=
    (m.createSubAgent_eq_some_iff (step.request distinct freshId)).mp made
  have path : m.configFor (step.request distinct freshId) =
      m.fromFile (step.request distinct freshId) file := by
    rw [configFor, show (step.request distinct freshId).role = step.role from rfl, loaded]
  rw [path, fromFile_eq_some_iff] at found
  refine m.inForce_of_given _ found.2 (by decide) ?_
  have override : (step.request distinct freshId).configOverrides =
      step.configOverrides.set "max_iterations" (.int step.maxIterations) := if_pos passed
  rw [given, override, ConfigField.key, Dict.lookup_set_self]
  rfl

theorem keepsOverrides_iff : m.KeepsOverrides req ↔ m.Meets req := by
  unfold Meets
  cases loaded : m.loadAgentConfig req.role with
  | data file => exact keepsOverrides_iff_of_data loaded
  | missing => exact keepsOverrides_iff_of_missing loaded
  | raises =>
      refine iff_of_false ?_ id
      rintro ⟨record, made, _⟩
      obtain ⟨config, _, found, _⟩ := (m.createSubAgent_eq_some_iff req).mp made
      rw [configFor, loaded] at found
      cases found

/-- A step with thirty iterations for an agent type without a file. -/
theorem not_keepsOverrides_thirtyIterations :
    let step : FullStep Rat :=
      ⟨"s1", "researcher", "task", "", "", none, [], "", [], 30, 0, 2, 2⟩
    let m : SubAgentMaker := {
      llmConfig := .dict [("model", .str "gpt-4o")]
      memoryConfig := .dict []
      extra := []
      env := "/srv"
      hasClient := true
      loadAgentConfig := fun _ => .missing
      validate := fun field given =>
        if field = .systemPrompt then (Core.readString given).map .str else some given
      validate_prompt := fun valid => by
        rw [if_pos rfl, Option.map_eq_some_iff] at valid
        exact valid.imp fun _ read => read.2.symm
      made := fun _ => .dict []
      agentStarts := fun _ => true
      clientStarts := fun _ => true }
    ¬ m.KeepsOverrides (step.request List.nodup_nil "0123456789abcdef") := by
  intro step m keeps
  rw [keepsOverrides_iff_of_missing rfl] at keeps
  obtain ⟨field, key, same⟩ := keeps.1 ("max_iterations", .int 30) List.mem_cons_self
  obtain rfl : field = .maxIterations := ConfigField.key_injective key
  cases same

end SubAgentMaker

end YouMi.Coordinator
