import YouMi.Python.Equality
import YouMi.Core.Versioning

/-!
# Tool definitions

The definition of a tool and its JSON form.  A dumped definition always has the
same nine keys, none of them with a dictionary under it, and validation reads a
dump back.
-/

namespace YouMi.Core

open YouMi.Python YouMi.Python.PyVal

structure ToolParameter where
  name : String
  type : String
  description : String
  required : Bool
  enum : Option (List String)
  default : JsonValue
  items : Option JsonObject

structure ToolDefinition where
  name : String
  description : String
  parameters : List ToolParameter
  version : String
  language : String
  runtime : String
  riskLevel : String
  requiredPermissions : List String
  timeoutS : Option Rat

/-- The weight of a risk level; an unknown level counts as low. -/
def riskRank (level : String) : Nat :=
  if level = "medium" then 1 else if level = "high" then 2 else if level = "critical" then 3 else 0

/-- No risk is above the ceiling of a query that sets none. -/
theorem riskRank_le_critical (level : String) : riskRank level ≤ riskRank "critical" := by
  unfold riskRank
  split
  · decide
  · split
    · decide
    · split <;> decide

/-! ## The JSON form -/

def dumpStrings (texts : List String) : PyVal := .list (texts.map .str)

def ToolParameter.dump (p : ToolParameter) : PyVal :=
  .dict [("name", .str p.name), ("type", .str p.type), ("description", .str p.description),
    ("required", .bool p.required),
    ("enum", match p.enum with | none => .null | some texts => dumpStrings texts),
    ("default", p.default.value),
    ("items", match p.items with | none => .null | some object => .dict object.entries)]

/-- `json.loads(definition.model_dump_json())`. -/
def ToolDefinition.dump (d : ToolDefinition) : Dict :=
  [("name", .str d.name), ("description", .str d.description),
    ("parameters", .list (d.parameters.map ToolParameter.dump)), ("version", .str d.version),
    ("language", .str d.language), ("runtime", .str d.runtime), ("risk_level", .str d.riskLevel),
    ("required_permissions", dumpStrings d.requiredPermissions),
    ("timeout_s", match d.timeoutS with | none => .null | some seconds => .float seconds)]

def fieldNames : List String :=
  ["name", "description", "parameters", "version", "language", "runtime", "risk_level",
    "required_permissions", "timeout_s"]

/-! ## Validation -/

def readString : PyVal → Option String
  | .str text => some text
  | _ => none

def readStrings : PyVal → Option (List String)
  | .list items => items.mapM readString
  | _ => none

def readBool : PyVal → Option Bool
  | .bool value => some value
  | _ => none

def readNullable {α : Type} (read : PyVal → Option α) : PyVal → Option (Option α)
  | .null => some none
  | v => (read v).map some

def readJson (v : PyVal) : Option JsonValue :=
  if json : v.isJson = true then some ⟨v, json⟩ else none

def readObject : PyVal → Option JsonObject
  | .dict entries =>
      if json : (PyVal.dict entries).isJson = true then some ⟨entries, json⟩ else none
  | _ => none

def readNumber (v : PyVal) : Option Rat := v.number?

/-- A field that may be missing: then it has its default. -/
def readField {α : Type} (d : Dict) (key : String) (missing : α) (read : PyVal → Option α) :
    Option α :=
  match d.lookup key with
  | none => some missing
  | some v => read v

def ToolParameter.modelValidate : PyVal → Option ToolParameter
  | .dict d => do
      let name ← (Dict.get d "name" |> readString)
      let type ← readField d "type" "string" readString
      let description ← readField d "description" "" readString
      let required ← readField d "required" true readBool
      let enum ← readField d "enum" none (readNullable readStrings)
      let default ← readField d "default" ⟨.null, rfl⟩ readJson
      let items ← readField d "items" none (readNullable readObject)
      return ⟨name, type, description, required, enum, default, items⟩
  | _ => none

def readParameters : PyVal → Option (List ToolParameter)
  | .list items => items.mapM ToolParameter.modelValidate
  | _ => none

/-- `ToolDefinition.model_validate`; `none` where it raises `ValidationError`. -/
def ToolDefinition.modelValidate (d : Dict) : Option ToolDefinition := do
  let name ← readString (d.get "name")
  let description ← readField d "description" "" readString
  let parameters ← readField d "parameters" [] readParameters
  let version ← readField d "version" "0.0.1" readString
  let language ← readField d "language" "python" readString
  let runtime ← readField d "runtime" "python" readString
  let riskLevel ← readField d "risk_level" "low" readString
  let requiredPermissions ← readField d "required_permissions" [] readStrings
  let timeoutS ← readField d "timeout_s" none (readNullable readNumber)
  return ⟨name, description, parameters, version, language, runtime, riskLevel,
    requiredPermissions, timeoutS⟩

/-! ## What a dump is read back as -/

theorem mapM_map_of_read {α β : Type} {write : α → β} {read : β → Option α}
    (read_write : ∀ a, read (write a) = some a) (items : List α) :
    (items.map write).mapM read = some items := by
  induction items with
  | nil => rfl
  | cons first rest ih => simp [read_write, ih]

@[simp]
theorem readStrings_dump (texts : List String) : readStrings (dumpStrings texts) = some texts := by
  have each : ∀ text, readString (.str text) = some text := fun _ => rfl
  exact mapM_map_of_read each texts

theorem readJson_value (v : JsonValue) : readJson v.value = some v := dif_pos v.json

theorem ToolParameter.modelValidate_dump (p : ToolParameter) :
    ToolParameter.modelValidate p.dump = some p := by
  obtain ⟨name, type, description, required, enum, default, items⟩ := p
  have enumBack : readNullable readStrings
      (match enum with | none => .null | some texts => dumpStrings texts) = some enum := by
    cases enum with
    | none => rfl
    | some texts => exact congrArg (Option.map some) (readStrings_dump texts)
  have itemsBack : readNullable readObject
      (match items with | none => .null | some object => .dict object.entries) = some items := by
    cases items with
    | none => rfl
    | some object => exact congrArg (Option.map some) (dif_pos object.json)
  simp [ToolParameter.modelValidate, ToolParameter.dump, readField, Dict.get, List.lookup_cons,
    readString, readBool, enumBack, itemsBack, readJson_value]

/-- The definition that takes each field from the definition picked for its name. -/
def ToolDefinition.mix (pick : String → ToolDefinition) : ToolDefinition where
  name := (pick "name").name
  description := (pick "description").description
  parameters := (pick "parameters").parameters
  version := (pick "version").version
  language := (pick "language").language
  runtime := (pick "runtime").runtime
  riskLevel := (pick "risk_level").riskLevel
  requiredPermissions := (pick "required_permissions").requiredPermissions
  timeoutS := (pick "timeout_s").timeoutS

/-- A dictionary with the fields of dumped definitions is valid, whichever each field is from. -/
theorem ToolDefinition.modelValidate_mix {d : Dict} {pick : String → ToolDefinition}
    (fields : ∀ key ∈ fieldNames, d.lookup key = (pick key).dump.lookup key) :
    ToolDefinition.modelValidate d = some (ToolDefinition.mix pick) := by
  have timeoutBack : ∀ seconds : Option Rat, readNullable readNumber
      (match seconds with | none => .null | some seconds => .float seconds) = some seconds := by
    intro seconds
    cases seconds <;> rfl
  have parametersBack : ∀ parameters : List ToolParameter,
      readParameters (.list (parameters.map ToolParameter.dump)) = some parameters :=
    mapM_map_of_read ToolParameter.modelValidate_dump
  simp [fieldNames, ToolDefinition.dump, List.lookup_cons] at fields
  obtain ⟨h1, h2, h3, h4, h5, h6, h7, h8, h9⟩ := fields
  simp [ToolDefinition.modelValidate, readField, Dict.get, h1, h2, h3, h4, h5, h6, h7, h8, h9,
    readString, timeoutBack, parametersBack, ToolDefinition.mix]

theorem ToolDefinition.lookup_dump_mix {pick : String → ToolDefinition} {key : String}
    (field : key ∈ fieldNames) :
    (ToolDefinition.mix pick).dump.lookup key = (pick key).dump.lookup key := by
  simp only [fieldNames, List.mem_cons, List.not_mem_nil, or_false] at field
  rcases field with rfl | rfl | rfl | rfl | rfl | rfl | rfl | rfl | rfl <;> rfl

theorem ToolDefinition.modelValidate_dump (d : ToolDefinition) :
    ToolDefinition.modelValidate d.dump = some d := by
  have same : ∀ key ∈ fieldNames, d.dump.lookup key = ((fun _ => d) key).dump.lookup key :=
    fun _ _ => rfl
  exact ToolDefinition.modelValidate_mix same

/-! ## What a dump contains -/

theorem isJson_dumpStrings (texts : List String) : (dumpStrings texts).isJson = true := by
  rw [dumpStrings, isJson, listIsJson_iff, List.forall_mem_map]
  exact fun _ _ => rfl

theorem ToolParameter.isJson_dump (p : ToolParameter) : p.dump.isJson = true := by
  have enum : (match p.enum with | none => .null | some texts => dumpStrings texts :
      PyVal).isJson = true := by
    split
    · rfl
    · exact isJson_dumpStrings _
  have items : (match p.items with | none => .null | some object => .dict object.entries :
      PyVal).isJson = true := by
    split
    · rfl
    · rename_i object _
      exact object.json
  rw [dump, isJson_dict_iff]
  refine ⟨by simp [Dict.keys], ?_⟩
  simp only [List.forall_mem_cons]
  exact ⟨rfl, rfl, rfl, rfl, enum, p.default.json, items, List.forall_mem_nil _⟩

theorem ToolDefinition.keys_dump (d : ToolDefinition) : d.dump.keys = fieldNames := rfl

theorem ToolDefinition.isJson_dump (d : ToolDefinition) : (PyVal.dict d.dump).isJson = true := by
  have parameters : (PyVal.list (d.parameters.map ToolParameter.dump)).isJson = true := by
    rw [isJson, listIsJson_iff, List.forall_mem_map]
    exact fun p _ => p.isJson_dump
  have timeout : (match d.timeoutS with | none => .null | some seconds => .float seconds :
      PyVal).isJson = true := by
    split <;> rfl
  rw [isJson_dict_iff, d.keys_dump]
  refine ⟨by decide, ?_⟩
  rw [dump]
  simp only [List.forall_mem_cons]
  exact ⟨rfl, rfl, parameters, rfl, rfl, rfl, rfl, isJson_dumpStrings _, timeout,
    List.forall_mem_nil _⟩

/-- No field of a dump is a dictionary. -/
theorem ToolDefinition.get_dump_ne_dict (d : ToolDefinition) (key : String) (inner : Dict) :
    d.dump.get key ≠ .dict inner := by
  intro found
  have present : d.dump.get key ≠ .sentinel := by simp [found]
  have member := Dict.mem_of_get present
  rw [found, dump] at member
  cases timeout : d.timeoutS <;> simp [timeout, dumpStrings] at member

end YouMi.Core
