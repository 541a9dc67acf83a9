import YouMi.Mcp.Bridge
import YouMi.Python.Text
import Mathlib.Data.List.Infix

/-!
# The approval of tool requests

`ToolApprovalMixin`: a master looks for the tools a sub-agent asks for, and grants
them or leaves them to a person.  What the search in the vault returns is given with
the request, as are the identifiers drawn for its records.
-/

namespace YouMi.Coordinator

open YouMi.Core YouMi.Library YouMi.Mcp YouMi.Python

structure SubAgent (V : Type) where
  bridge : Option (ToolBridge V) := none
  /-- Whether its bridge has the vault of the master. -/
  attached : Bool := true
  /-- `config.allowed_tools`. -/
  allowedTools : List String := []

/-- What a person finds in the queue. -/
structure ReviewPayload where
  toolDesc : PyVal
  reason : PyVal
  matchedTools : List String

structure MasterState (V : Type) where
  agentId : String
  approvalManager : ApprovalManager := {}
  toolRegistry : OrderedDict String ToolDefinition := []
  /-- The vault of the master's own bridge. -/
  vault : Option (ToolVault V) := none
  subAgents : OrderedDict String (SubAgent V) := []
  pendingToolRequests : OrderedDict String (PyVal × PyVal) := []
  manualReviewQueue : OrderedDict String ReviewPayload := []

/-- A message of type `TOOL_REQUEST`, with what it meets when it is handled. -/
structure ToolRequest where
  requesterId : String
  /-- `json.loads(message.content)`, nothing where it raises. -/
  content : Option PyVal
  /-- What the search returns, empty without a vault or where it raises. -/
  found : List ToolSearchResult := []
  /-- The identifier drawn for the record of a tool; each tool is matched once. -/
  freshId : String → String
  /-- Whether the bus takes the reply. -/
  replied : Bool := true

/-- What is decided on the tools that match. -/
inductive ToolVerdict where
  | notFound
  | manualReview (sensitive : List String)
  | approved (matchedTools : List String) (approvalMode : String)

variable {V : Type}

/-! ## Matching -/

/-- `keyword in text`. -/
def contains (text keyword : List Char) : Bool := decide (keyword <:+: text)

/-- `text.split()`. -/
def words (text : String) : List (List Char) :=
  (text.toList.splitOnP isSpace).filter (· ≠ [])

section Matching

variable (lower : String → String)

/-- `lower` is `str.lower`. -/
def keywords (toolDesc : String) : List (List Char) :=
  (words (lower toolDesc)).filter fun keyword => 2 < keyword.length

/-- A keyword of the description stands in the name of the tool or in its description. -/
def keywordMatch (toolDesc toolName : String) (definition : ToolDefinition) : Bool :=
  (keywords lower toolDesc).any (contains (lower toolName).toList) ||
    (keywords lower toolDesc).any (contains (lower definition.description).toList)

/-- What the search has found, and else what the registry has; nothing where the description
is not a text. -/
def matchedTools (toolRegistry : OrderedDict String ToolDefinition)
    (found : List ToolSearchResult) (toolDesc : PyVal) : Option (List String) :=
  let names := (found.map ToolSearchResult.toolName).eraseDups
  if names ≠ [] then some names
  else
    match toolDesc with
    | .str text =>
        some (OrderedDict.keys
          (toolRegistry.filter fun entry => keywordMatch lower text entry.1 entry.2))
    | _ => none

end Matching

/-- Whether `reason[:60]` does not raise. -/
def sliceable : PyVal → Bool
  | .str _ => true
  | .list _ => true
  | _ => false

/-- The description and the reason of a request; nothing where it is left alone. -/
def ToolRequest.read (request : ToolRequest) : Option (PyVal × PyVal) :=
  match request.content with
  | some (.dict data) =>
      let toolDesc := (data.lookup "tool_description").getD (.str "")
      let reason := (data.lookup "reason").getD (.str "")
      if sliceable reason then some (toolDesc, reason) else none
  | _ => none

/-! ## Verdicts -/

/-- One tool that needs a person keeps all others waiting. -/
def toolVerdict (manager : ApprovalManager) (matched : List String) : ToolVerdict :=
  let sensitive := matched.filter fun toolName => manager.evaluate toolName none = .manual
  if matched = [] then .notFound
  else if sensitive ≠ [] then .manualReview sensitive
  else
    .approved matched
      (if matched.any fun toolName => manager.evaluate toolName none = .master then "master"
      else "auto")

/-- The content of the reply. -/
def ToolVerdict.reply (availableTools : List String) : ToolVerdict → Dict
  | .notFound =>
      [("approved", .bool false),
        ("reason", .str ("未找到匹配的工具，当前可用: " ++ ", ".intercalate (availableTools.take 10)))]
  | .manualReview sensitive =>
      [("approved", .bool false),
        ("reason", .str ("工具 " ++ ", ".intercalate sensitive ++ " 需要人工审批，已加入待审核队列")),
        ("pending_manual_review", .bool true)]
  | .approved matchedTools approvalMode =>
      [("approved", .bool true),
        ("matched_tools", .list (matchedTools.map .str)),
        ("approval_mode", .str approvalMode),
        ("reason", .str ("找到匹配工具 (" ++ approvalMode ++ "): " ++ ", ".intercalate matchedTools))]

/-! ## Records -/

/-- Each of the tools is submitted. -/
def submitAll (freshId : String → String) (agentId : String) (manager : ApprovalManager)
    (toolNames : List String) : ApprovalManager :=
  toolNames.foldl
    (fun manager toolName => (manager.submitRequest (freshId toolName) agentId toolName none).2)
    manager

/-- Each of the records is decided. -/
def settleAll (decision : ApprovalDecision) (decidedBy reason : String)
    (manager : ApprovalManager) (recordIds : List String) : ApprovalManager :=
  recordIds.foldl
    (fun manager recordId => (ApprovalManager.settle decision manager recordId decidedBy reason).2)
    manager

/-- The identifiers of the records of an agent that wait. -/
def waitingIds (manager : ApprovalManager) (agentId : String) : List String :=
  (manager.getPendingForAgent agentId).map ApprovalRecord.recordId

/-! ## Grants -/

/-- `confirm_search_result` of the agent's bridge, where it has one. -/
def SubAgent.confirm (vault : Option (ToolVault V)) (agent : SubAgent V) (toolName : String) :
    SubAgent V × Option (ToolVault V) :=
  match agent.bridge with
  | none => (agent, vault)
  | some bridge =>
      let activated := bridge.activateTool (if agent.attached then vault else none) toolName
      ({ agent with bridge := some activated.2.1 },
        if agent.attached then activated.2.2 else vault)

/-- The tool is added to the configuration where it is not there. -/
def SubAgent.list (agent : SubAgent V) (toolName : String) : SubAgent V :=
  if toolName ∈ agent.allowedTools then agent
  else { agent with allowedTools := agent.allowedTools ++ [toolName] }

/-- The loop of `_handle_tool_request` over the tools that match. -/
def SubAgent.grantEach (vault : Option (ToolVault V)) (agent : SubAgent V) :
    List String → SubAgent V × Option (ToolVault V)
  | [] => (agent, vault)
  | toolName :: rest =>
      let confirmed := agent.confirm vault toolName
      (confirmed.1.list toolName).grantEach confirmed.2 rest

/-- The two loops of `approve_tool_request`. -/
def SubAgent.confirmEach (vault : Option (ToolVault V)) (agent : SubAgent V) :
    List String → SubAgent V × Option (ToolVault V)
  | [] => (agent, vault)
  | toolName :: rest =>
      let confirmed := agent.confirm vault toolName
      confirmed.1.confirmEach confirmed.2 rest

def SubAgent.listEach (agent : SubAgent V) (toolNames : List String) : SubAgent V :=
  toolNames.foldl SubAgent.list agent

/-! ## The operations of the master -/

namespace MasterState

def grantMatched (master : MasterState V) (agentId : String) (matched : List String) :
    MasterState V :=
  match master.subAgents.lookup agentId with
  | none => master
  | some agent =>
      let granted := agent.grantEach master.vault matched
      { master with
        subAgents := master.subAgents.assign agentId granted.1
        vault := granted.2 }

/-- The request is forgotten once it is answered. -/
def close (master : MasterState V) (request : ToolRequest) : MasterState V :=
  if request.replied then
    { master with pendingToolRequests := master.pendingToolRequests.erase request.requesterId }
  else master

/-- The records of the tools that are not approved automatically. -/
def masterIds (master : MasterState V) (freshId : String → String) (matched : List String) :
    List String :=
  (matched.filter fun toolName => master.approvalManager.evaluate toolName none = .master).map
    freshId

def carryOut (master : MasterState V) (request : ToolRequest) (toolDesc reason : PyVal) :
    ToolVerdict → MasterState V
  | .notFound => master.close request
  | .manualReview sensitive =>
      { master with
        approvalManager :=
          submitAll request.freshId request.requesterId master.approvalManager sensitive
        manualReviewQueue :=
          master.manualReviewQueue.assign request.requesterId ⟨toolDesc, reason, sensitive⟩ }
  | .approved matched _ =>
      let submitted :=
        submitAll request.freshId request.requesterId master.approvalManager matched
      let master := { master with
        approvalManager :=
          settleAll .approved master.agentId "Master 审批：匹配到可用工具" submitted
            (master.masterIds request.freshId matched) }
      (master.grantMatched request.requesterId matched).close request

/-- `_handle_tool_request`: the reply, if there is one. -/
def handleToolRequest (lower : String → String) (master : MasterState V)
    (request : ToolRequest) : Option Dict × MasterState V :=
  match request.read with
  | none => (none, master)
  | some (toolDesc, reason) =>
      let master := { master with
        pendingToolRequests :=
          master.pendingToolRequests.assign request.requesterId (toolDesc, reason) }
      match matchedTools lower master.toolRegistry request.found toolDesc with
      | none => (none, master)
      | some matched =>
          let verdict := toolVerdict master.approvalManager matched
          (some (verdict.reply master.toolRegistry.keys),
            master.carryOut request toolDesc reason verdict)

def approveToolRequest (master : MasterState V) (agentId : String) (toolNames : List String) :
    Bool × MasterState V :=
  match master.subAgents.lookup agentId with
  | none => (false, master)
  | some agent =>
      let confirmed := agent.confirmEach master.vault toolNames
      (true, { master with
        subAgents := master.subAgents.assign agentId (confirmed.1.listEach toolNames)
        vault := confirmed.2
        approvalManager :=
          settleAll .approved "user" ("人工批准: " ++ ", ".intercalate toolNames)
            master.approvalManager (waitingIds master.approvalManager agentId)
        pendingToolRequests := master.pendingToolRequests.erase agentId
        manualReviewQueue := master.manualReviewQueue.erase agentId })

/-- Whether a request of the agent was there. -/
def denyToolRequest (master : MasterState V) (agentId reason : String) :
    Bool × MasterState V :=
  ((master.pendingToolRequests.lookup agentId).isSome,
    { master with
      approvalManager :=
        settleAll .denied master.agentId (orElse reason "Master 拒绝")
          master.approvalManager (waitingIds master.approvalManager agentId)
      pendingToolRequests := master.pendingToolRequests.erase agentId })

/-- `reset_for_new_task`; the records that wait are kept. -/
def resetForNewTask (master : MasterState V) : MasterState V :=
  { master with
    subAgents := []
    pendingToolRequests := []
    manualReviewQueue := []
    approvalManager := master.approvalManager.clearResolved.2 }

end MasterState

end YouMi.Coordinator
