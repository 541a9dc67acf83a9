import YouMi.Coordinator.ToolApproval

/-!
# What the approval of tool requests does

The records that are submitted and decided, the tools a request matches with what is
decided on them, and what is left of the master's state when a request is handled.
-/

namespace YouMi.Coordinator

open YouMi.Core YouMi.Library YouMi.Mcp YouMi.Python

variable {V : Type}

/-! ## What becomes of the records -/

section Records

variable {manager : ApprovalManager} {freshId : String → String}
  {agentId toolName recordId : String} {toolNames : List String}

theorem lookup_submitAll_of_not_mem (undrawn : recordId ∉ toolNames.map freshId) :
    (submitAll freshId agentId manager toolNames).records.lookup recordId =
      manager.records.lookup recordId := by
  unfold submitAll
  induction toolNames generalizing manager with
  | nil => rfl
  | cons first rest ih =>
      obtain ⟨other, undrawn⟩ := not_or.mp (List.mem_cons.not.mp undrawn)
      rw [List.foldl_cons, ih undrawn, ApprovalManager.lookup_submitRequest, if_neg other]

/-- The record of a tool stands under the identifier drawn for it. -/
theorem lookup_submitAll_of_mem
    (distinct : ∀ other ∈ toolNames, freshId other = freshId toolName → other = toolName)
    (member : toolName ∈ toolNames) :
    (submitAll freshId agentId manager toolNames).records.lookup (freshId toolName) =
      some (manager.newRecord (freshId toolName) agentId toolName none) := by
  induction toolNames generalizing manager with
  | nil => cases member
  | cons first rest ih =>
      have later : ∀ other ∈ rest, freshId other = freshId toolName → other = toolName :=
        fun other there => distinct other (List.mem_cons_of_mem _ there)
      by_cases again : toolName ∈ rest
      · exact ih later again
      · have same : first = toolName := by
          rcases List.mem_cons.mp member with same | there
          · exact same.symm
          · exact absurd there again
        have undrawn : freshId toolName ∉ rest.map freshId := by
          intro drawn
          obtain ⟨other, there, agrees⟩ := List.mem_map.mp drawn
          exact again (later other there agrees ▸ there)
        subst same
        have stored := ApprovalManager.lookup_submitRequest manager (freshId first) agentId first
          (freshId first) none
        rw [if_pos rfl] at stored
        exact (lookup_submitAll_of_not_mem undrawn).trans stored

theorem lookup_settleAll (decision : ApprovalDecision) (decidedBy reason : String)
    (manager : ApprovalManager) (recordIds : List String) (recordId : String) :
    (settleAll decision decidedBy reason manager recordIds).records.lookup recordId =
      (manager.records.lookup recordId).map fun record =>
        if recordId ∈ recordIds ∧ record.decision = .pending then
          { record with decision, decidedBy, reason }
        else record := by
  unfold settleAll
  induction recordIds generalizing manager with
  | nil => simp
  | cons first rest ih =>
      rw [List.foldl_cons, ih, ApprovalManager.lookup_settle, Option.map_map]
      refine congrArg (fun decide => (manager.records.lookup recordId).map decide) (funext ?_)
      intro record
      by_cases waits : record.decision = .pending
      · by_cases same : recordId = first
        · simp [same, waits]
        · simp [same, waits]
      · simp [waits]

theorem mem_waitingIds :
    recordId ∈ waitingIds manager agentId ↔
      ∃ record, manager.records.lookup recordId = some record ∧ record.agentId = agentId ∧
        record.decision = .pending := by
  unfold waitingIds
  rw [List.mem_map]
  constructor
  · rintro ⟨record, member, rfl⟩
    exact ⟨record, ApprovalManager.mem_getPendingForAgent.mp member⟩
  · rintro ⟨record, found, rest⟩
    have own := ApprovalManager.recordId_of_lookup found
    exact ⟨record, ApprovalManager.mem_getPendingForAgent.mpr ⟨own.symm ▸ found, rest⟩, own⟩

/-- A decision on all that waits for an agent leaves the other records as they are. -/
theorem lookup_settleAll_waitingIds (decision : ApprovalDecision) (decidedBy reason : String)
    (manager : ApprovalManager) (agentId recordId : String) :
    (settleAll decision decidedBy reason manager (waitingIds manager agentId)).records.lookup
        recordId =
      (manager.records.lookup recordId).map fun record =>
        if record.agentId = agentId ∧ record.decision = .pending then
          { record with decision, decidedBy, reason }
        else record := by
  rw [lookup_settleAll]
  cases found : manager.records.lookup recordId with
  | none => rfl
  | some record =>
      have listed : recordId ∈ waitingIds manager agentId ∧ record.decision = .pending ↔
          record.agentId = agentId ∧ record.decision = .pending := by
        rw [mem_waitingIds, found]
        simp
      rw [Option.map_some, Option.map_some, if_congr listed rfl rfl]

end Records

/-! ## What a request matches -/

/-- The tool is on the list of sensitive tools, and no other list spares it. -/
def NeedsPerson (manager : ApprovalManager) (toolName : String) : Prop :=
  toolName ∈ manager.sensitiveTools ∧ toolName ∉ manager.autoApproveList

/-- The search has found the tool, or it has found nothing and a word of the description
stands in the name of the tool in the registry or in its description. -/
def Matches (lower : String → String) (master : MasterState V) (request : ToolRequest)
    (toolName : String) : Prop :=
  ∃ toolDesc reason, request.read = some (toolDesc, reason) ∧
    ((∃ hit ∈ request.found, hit.toolName = toolName) ∨
      request.found = [] ∧ ∃ text definition, toolDesc = .str text ∧
        (toolName, definition) ∈ master.toolRegistry ∧
          keywordMatch lower text toolName definition = true)

/-- What is decided on a request, and why. -/
inductive Decides (manager : ApprovalManager) (Matched : String → Prop) : ToolVerdict → Prop where
  | notFound (nothing : ∀ toolName, ¬Matched toolName) : Decides manager Matched .notFound
  | manualReview (sensitive : List String) (first : sensitive ≠ [])
      (listed : ∀ toolName, toolName ∈ sensitive ↔
        Matched toolName ∧ NeedsPerson manager toolName) :
      Decides manager Matched (.manualReview sensitive)
  | approved (matched : List String) (approvalMode : String)
      (listed : ∀ toolName, toolName ∈ matched ↔ Matched toolName)
      (spared : ∀ toolName, Matched toolName → ¬NeedsPerson manager toolName) :
      Decides manager Matched (.approved matched approvalMode)

/-- The verdict on a request; without a match nothing is found. -/
def MasterState.verdictOn (lower : String → String) (master : MasterState V)
    (request : ToolRequest) : ToolVerdict :=
  match request.read with
  | none => .notFound
  | some (toolDesc, _) =>
      match matchedTools lower master.toolRegistry request.found toolDesc with
      | none => .notFound
      | some matched => toolVerdict master.approvalManager matched

section Verdicts

variable {lower : String → String} {master : MasterState V} {request : ToolRequest}
  {manager : ApprovalManager} {toolName : String}

theorem evaluate_eq_manual_iff :
    manager.evaluate toolName none = .manual ↔ NeedsPerson manager toolName := by
  unfold ApprovalManager.evaluate NeedsPerson
  by_cases auto : toolName ∈ manager.autoApproveList
  · simp [auto]
  · by_cases sensitive : toolName ∈ manager.sensitiveTools <;> simp [auto, sensitive]

theorem decides_toolVerdict (manager : ApprovalManager) (matched : List String) :
    Decides manager (· ∈ matched) (toolVerdict manager matched) := by
  have waits : ∀ toolName,
      toolName ∈ (matched.filter fun toolName => manager.evaluate toolName none = .manual) ↔
        toolName ∈ matched ∧ NeedsPerson manager toolName := by
    intro toolName
    rw [List.mem_filter, decide_eq_true_iff, evaluate_eq_manual_iff]
  unfold toolVerdict
  dsimp only
  by_cases empty : matched = []
  · rw [if_pos empty, empty]
    exact .notFound fun toolName => List.not_mem_nil
  · rw [if_neg empty]
    split
    · rename_i first
      exact .manualReview _ first waits
    · rename_i nobody
      refine .approved _ _ (fun toolName => Iff.rfl) fun toolName member needs => nobody ?_
      exact List.ne_nil_of_mem ((waits toolName).mpr ⟨member, needs⟩)

theorem mem_matchedTools {toolRegistry : OrderedDict String ToolDefinition}
    {found : List ToolSearchResult} {toolDesc : PyVal} :
    (∃ matched, matchedTools lower toolRegistry found toolDesc = some matched ∧
        toolName ∈ matched) ↔
      (∃ hit ∈ found, hit.toolName = toolName) ∨
        found = [] ∧ ∃ text definition, toolDesc = .str text ∧
          (toolName, definition) ∈ toolRegistry ∧
            keywordMatch lower text toolName definition = true := by
  cases found with
  | cons hit rest =>
      have hits : ((hit :: rest).map ToolSearchResult.toolName).eraseDups ≠ [] :=
        List.ne_nil_of_mem (List.mem_eraseDups.mpr List.mem_cons_self)
      unfold matchedTools
      dsimp only
      rw [if_pos hits]
      simp only [Option.some.injEq, exists_eq_left', List.mem_eraseDups, List.mem_map, reduceCtorEq,
        false_and, or_false]
  | nil =>
      cases toolDesc with
      | str text => simp [matchedTools, OrderedDict.keys]
      | _ => simp [matchedTools]

theorem decides_verdictOn (lower : String → String) (master : MasterState V)
    (request : ToolRequest) :
    Decides master.approvalManager (Matches lower master request)
      (master.verdictOn lower request) := by
  unfold MasterState.verdictOn
  cases read : request.read with
  | none =>
      exact .notFound fun toolName ⟨_, _, asked, _⟩ => nomatch read.symm.trans asked
  | some asked =>
      obtain ⟨toolDesc, reason⟩ := asked
      have meets : ∀ toolName, Matches lower master request toolName ↔
          ∃ matched, matchedTools lower master.toolRegistry request.found toolDesc =
            some matched ∧ toolName ∈ matched := by
        intro toolName
        rw [mem_matchedTools]
        unfold Matches
        simp [read]
      dsimp only
      cases tools : matchedTools lower master.toolRegistry request.found toolDesc with
      | none => exact .notFound fun toolName matched => by simp [meets, tools] at matched
      | some matched =>
          have same : Matches lower master request = (· ∈ matched) := by
            funext toolName
            simp [meets, tools]
          rw [same]
          exact decides_toolVerdict master.approvalManager matched

end Verdicts

/-! ## What handling a request leaves -/

section Handling

variable (lower : String → String) (master : MasterState V) (request : ToolRequest)

/-- The tools that stand in the queue for an agent. -/
def MasterState.queuedTools (master : MasterState V) (agentId : String) : List String :=
  match master.manualReviewQueue.lookup agentId with
  | none => []
  | some payload => payload.matchedTools

theorem fields_grantMatched (agentId : String) (matched : List String) :
    (master.grantMatched agentId matched).approvalManager = master.approvalManager ∧
      (master.grantMatched agentId matched).manualReviewQueue = master.manualReviewQueue := by
  unfold MasterState.grantMatched
  split <;> exact ⟨rfl, rfl⟩

theorem fields_close :
    (master.close request).approvalManager = master.approvalManager ∧
      (master.close request).manualReviewQueue = master.manualReviewQueue ∧
      (master.close request).subAgents = master.subAgents := by
  unfold MasterState.close
  split <;> exact ⟨rfl, rfl, rfl⟩

theorem fields_carryOut_approved (toolDesc reason : PyVal) (matched : List String)
    (approvalMode : String) :
    (master.carryOut request toolDesc reason (.approved matched approvalMode)).approvalManager =
        settleAll .approved master.agentId "Master 审批：匹配到可用工具"
          (submitAll request.freshId request.requesterId master.approvalManager matched)
          (master.masterIds request.freshId matched) ∧
      (master.carryOut request toolDesc reason
        (.approved matched approvalMode)).manualReviewQueue = master.manualReviewQueue := by
  obtain ⟨manager, queue, -⟩ :=
    fields_close (MasterState.grantMatched _ request.requesterId matched) request
  exact ⟨manager.trans (fields_grantMatched _ request.requesterId matched).1,
    queue.trans (fields_grantMatched _ request.requesterId matched).2⟩

/-- Handling a request carries out the verdict on it. -/
theorem handleToolRequest_cases :
    (master.verdictOn lower request = .notFound ∧
        ∃ requests, (master.handleToolRequest lower request).2 =
          { master with pendingToolRequests := requests }) ∨
      ∃ toolDesc reason requests,
        (master.handleToolRequest lower request).2 =
          { master with pendingToolRequests := requests }.carryOut request toolDesc reason
            (master.verdictOn lower request) := by
  unfold MasterState.handleToolRequest MasterState.verdictOn
  cases request.read with
  | none => exact .inl ⟨rfl, ⟨_, rfl⟩⟩
  | some asked =>
      obtain ⟨toolDesc, reason⟩ := asked
      dsimp only
      cases matchedTools lower master.toolRegistry request.found toolDesc with
      | none => exact .inl ⟨rfl, ⟨_, rfl⟩⟩
      | some matched => exact .inr ⟨toolDesc, reason, _, rfl⟩

theorem subAgents_carryOut (toolDesc reason : PyVal) (verdict : ToolVerdict) :
    (master.carryOut request toolDesc reason verdict).subAgents =
      match verdict with
      | .approved matchedTools _ => (master.grantMatched request.requesterId matchedTools).subAgents
      | _ => master.subAgents := by
  cases verdict with
  | notFound => exact (fields_close master request).2.2
  | manualReview sensitive => rfl
  | approved matchedTools approvalMode =>
      refine (fields_close (MasterState.grantMatched _ request.requesterId matchedTools)
        request).2.2.trans ?_
      unfold MasterState.grantMatched
      dsimp only
      split <;> rfl

/-- The sub-agents after a request, of which one may have been granted what matches. -/
theorem subAgents_handleToolRequest :
    (master.handleToolRequest lower request).2.subAgents =
      match master.verdictOn lower request with
      | .approved matchedTools _ => (master.grantMatched request.requesterId matchedTools).subAgents
      | _ => master.subAgents := by
  rcases handleToolRequest_cases lower master request with
    ⟨nothing, requests, after⟩ | ⟨toolDesc, reason, requests, after⟩
  · rw [nothing, after]
  · rw [after, subAgents_carryOut]
    cases master.verdictOn lower request with
    | approved matchedTools approvalMode =>
        unfold MasterState.grantMatched
        dsimp only
        split <;> rfl
    | _ => rfl

end Handling

theorem approveToolRequest_of_unknown {master : MasterState V} {agentId : String}
    (unknown : master.subAgents.lookup agentId = none) (toolNames : List String) :
    master.approveToolRequest agentId toolNames = (false, master) := by
  unfold MasterState.approveToolRequest
  rw [unknown]

end YouMi.Coordinator
