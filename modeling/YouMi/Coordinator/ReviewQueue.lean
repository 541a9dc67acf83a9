import YouMi.Coordinator.ApprovalLaws
import YouMi.Library.Runs

/-!
# The queue of manual reviews

What waits for a person stands twice: as records of the approval manager, and as one
payload for each agent in the queue of the master.  Handling requests, approving,
denying and resetting change both.
-/

namespace YouMi.Coordinator

open YouMi.Core YouMi.Library YouMi.Mcp YouMi.Python

variable {V : Type}

/-- A record of the agent for the tool waits. -/
def Waits (manager : ApprovalManager) (agentId toolName : String) : Prop :=
  ∃ recordId record, manager.records.lookup recordId = some record ∧
    record.agentId = agentId ∧ record.toolName = toolName ∧ record.decision = .pending

/-! ## What waits -/

section Waiting

variable {manager : ApprovalManager} {freshId : String → String} {agentId : String}
  {toolNames : List String}

/-- The identifiers drawn for the tools are new, and differ. -/
def Drawn (manager : ApprovalManager) (freshId : String → String) (Drew : String → Prop) : Prop :=
  ∀ toolName, Drew toolName →
    manager.records.lookup (freshId toolName) = none ∧
      ∀ other, Drew other → freshId other = freshId toolName → other = toolName

theorem Drawn.mono {Drew Fewer : String → Prop} (drawn : Drawn manager freshId Drew)
    (fewer : ∀ toolName, Fewer toolName → Drew toolName) : Drawn manager freshId Fewer := by
  intro toolName member
  obtain ⟨new, apart⟩ := drawn toolName (fewer toolName member)
  exact ⟨new, fun other there => apart other (fewer other there)⟩

theorem lookup_submitAll_cases (drawn : Drawn manager freshId (· ∈ toolNames))
    (agentId recordId : String) :
    ((∀ toolName ∈ toolNames, freshId toolName ≠ recordId) ∧
        (submitAll freshId agentId manager toolNames).records.lookup recordId =
          manager.records.lookup recordId) ∨
      ∃ toolName ∈ toolNames, freshId toolName = recordId ∧
        manager.records.lookup recordId = none ∧
          (submitAll freshId agentId manager toolNames).records.lookup recordId =
            some (manager.newRecord recordId agentId toolName none) := by
  by_cases member : recordId ∈ toolNames.map freshId
  · obtain ⟨toolName, there, rfl⟩ := List.mem_map.mp member
    obtain ⟨new, apart⟩ := drawn toolName there
    exact .inr ⟨toolName, there, rfl, new, lookup_submitAll_of_mem apart there⟩
  · refine .inl ⟨fun toolName there same => ?_, lookup_submitAll_of_not_mem member⟩
    exact member (List.mem_map.mpr ⟨toolName, there, same⟩)

/-- What is submitted waits unless it is approved automatically. -/
theorem waits_submitAll (drawn : Drawn manager freshId (· ∈ toolNames))
    (agentId other toolName : String) :
    Waits (submitAll freshId agentId manager toolNames) other toolName ↔
      Waits manager other toolName ∨
        other = agentId ∧ toolName ∈ toolNames ∧ toolName ∉ manager.autoApproveList := by
  constructor
  · rintro ⟨recordId, record, found, rfl, rfl, pending⟩
    rcases lookup_submitAll_cases drawn agentId recordId with
      ⟨_, same⟩ | ⟨submitted, there, _, _, stored⟩
    · exact .inl ⟨recordId, record, same ▸ found, rfl, rfl, pending⟩
    · obtain rfl := Option.some.inj (found.symm.trans stored)
      obtain ⟨-, agent, tool, -⟩ := manager.newRecord_fields recordId agentId submitted none
      rw [ApprovalManager.newRecord_decision] at pending
      rw [agent, tool]
      refine .inr ⟨rfl, there, fun auto => ?_⟩
      rw [if_pos auto] at pending
      cases pending
  · rintro (⟨recordId, record, found, rest⟩ | ⟨rfl, there, listed⟩)
    · rcases lookup_submitAll_cases drawn agentId recordId with ⟨_, same⟩ | ⟨_, _, _, new, _⟩
      · exact ⟨recordId, record, same ▸ found, rest⟩
      · cases found.symm.trans new
    · obtain ⟨-, agent, tool, -⟩ := manager.newRecord_fields (freshId toolName) other toolName none
      refine ⟨freshId toolName, _, lookup_submitAll_of_mem (drawn toolName there).2 there, agent,
        tool, ?_⟩
      rw [ApprovalManager.newRecord_decision, if_neg listed]

/-- Tools that need no person do not wait: what is not approved automatically the master
approves. -/
theorem waits_approveAll {master : MasterState V}
    (drawn : Drawn master.approvalManager freshId (· ∈ toolNames))
    (spared : ∀ toolName ∈ toolNames, ¬NeedsPerson master.approvalManager toolName)
    (agentId decidedBy reason other toolName : String) :
    Waits (settleAll .approved decidedBy reason
        (submitAll freshId agentId master.approvalManager toolNames)
        (master.masterIds freshId toolNames)) other toolName ↔
      Waits master.approvalManager other toolName := by
  have decided (recordId : String) :=
    lookup_settleAll .approved decidedBy reason
      (submitAll freshId agentId master.approvalManager toolNames)
      (master.masterIds freshId toolNames) recordId
  have listed : ∀ recordId, recordId ∈ master.masterIds freshId toolNames ↔
      ∃ toolName ∈ toolNames, master.approvalManager.evaluate toolName none = .master ∧
        freshId toolName = recordId := by
    simp [MasterState.masterIds, and_assoc]
  have unlisted : ∀ recordId, (∀ toolName ∈ toolNames, freshId toolName ≠ recordId) →
      recordId ∉ master.masterIds freshId toolNames := by
    intro recordId apart
    rw [listed]
    rintro ⟨toolName, there, _, drew⟩
    exact apart toolName there drew
  constructor
  · rintro ⟨recordId, record, found, agent, tool, pending⟩
    rw [decided] at found
    rcases lookup_submitAll_cases drawn agentId recordId with
      ⟨apart, same⟩ | ⟨submitted, there, own, _, stored⟩
    · rw [same] at found
      simp only [unlisted recordId apart, false_and, ↓reduceIte, Option.map_id'] at found
      exact ⟨recordId, record, found, agent, tool, pending⟩
    · rw [stored, Option.map_some, Option.some.injEq] at found
      split at found
      · rw [← found] at pending
        cases pending
      · rename_i stays
        rw [← found, ApprovalManager.newRecord_decision] at pending
        rw [ApprovalManager.newRecord_decision, listed] at stays
        by_cases auto : submitted ∈ master.approvalManager.autoApproveList
        · rw [if_pos auto] at pending
          cases pending
        · refine absurd ⟨⟨submitted, there, ?_, own⟩, if_neg auto⟩ stays
          have calm : submitted ∉ master.approvalManager.sensitiveTools :=
            fun sensitive => spared submitted there ⟨sensitive, auto⟩
          simp [ApprovalManager.evaluate, auto, calm]
  · rintro ⟨recordId, record, found, rest⟩
    rcases lookup_submitAll_cases drawn agentId recordId with ⟨apart, same⟩ | ⟨_, _, _, new, _⟩
    · refine ⟨recordId, record, ?_, rest⟩
      rw [decided, same, found]
      simp [unlisted recordId apart]
    · cases found.symm.trans new

/-- After a decision on all that waits for an agent nothing waits for it. -/
theorem waits_settleAll_waitingIds {decision : ApprovalDecision} (decides : decision ≠ .pending)
    (decidedBy reason : String) (manager : ApprovalManager) (agentId other toolName : String) :
    Waits (settleAll decision decidedBy reason manager (waitingIds manager agentId)) other
        toolName ↔
      other ≠ agentId ∧ Waits manager other toolName := by
  have decided := lookup_settleAll_waitingIds decision decidedBy reason manager agentId
  constructor
  · rintro ⟨recordId, after, found, rfl, rfl, pending⟩
    rw [decided, Option.map_eq_some_iff] at found
    obtain ⟨record, before, rfl⟩ := found
    split at pending
    · exact absurd pending decides
    · rename_i stays
      rw [if_neg stays]
      exact ⟨fun agent => stays ⟨agent, pending⟩, recordId, record, before, rfl, rfl, pending⟩
  · rintro ⟨apart, recordId, record, found, rfl, rfl, pending⟩
    refine ⟨recordId, record, ?_, rfl, rfl, pending⟩
    rw [decided, found, Option.map_some, if_neg fun own => apart own.1]

theorem waits_clearResolved (manager : ApprovalManager) (agentId toolName : String) :
    Waits manager.clearResolved.2 agentId toolName ↔ Waits manager agentId toolName := by
  unfold Waits
  simp only [ApprovalManager.lookup_clearResolved, Option.filter_eq_some_iff, decide_eq_true_eq]
  refine exists_congr fun recordId => exists_congr fun record => ?_
  tauto

end Waiting

/-! ## Approving by name -/

theorem approvalManager_approveToolRequest {master : MasterState V} {agentId : String}
    (known : master.subAgents.lookup agentId ≠ none) (toolNames : List String) :
    (master.approveToolRequest agentId toolNames).1 = true ∧
      (master.approveToolRequest agentId toolNames).2.approvalManager =
        settleAll .approved "user" ("人工批准: " ++ ", ".intercalate toolNames)
          master.approvalManager (waitingIds master.approvalManager agentId) := by
  unfold MasterState.approveToolRequest
  cases found : master.subAgents.lookup agentId with
  | none => exact absurd found known
  | some agent => exact ⟨rfl, rfl⟩

/--
A successful approval decides the records of the tools that are named, and no
other, exactly if only tools that are named wait for the agent.
-/
theorem approves_named_iff (master : MasterState V) (agentId : String)
    (toolNames : List String) :
    ((master.approveToolRequest agentId toolNames).1 = true →
        ∀ recordId record, master.approvalManager.records.lookup recordId = some record →
          record.agentId = agentId → record.decision = .pending →
            (master.approveToolRequest agentId toolNames).2.approvalManager.decisionOf recordId =
              some (if record.toolName ∈ toolNames then .approved else .pending)) ↔
      (master.subAgents.lookup agentId ≠ none →
        ∀ toolName, Waits master.approvalManager agentId toolName → toolName ∈ toolNames) := by
  by_cases known : master.subAgents.lookup agentId = none
  · simp [approveToolRequest_of_unknown known, known]
  · obtain ⟨success, manager⟩ := approvalManager_approveToolRequest known toolNames
    have approved : ∀ recordId record,
        master.approvalManager.records.lookup recordId = some record →
          record.agentId = agentId → record.decision = .pending →
            (master.approveToolRequest agentId toolNames).2.approvalManager.decisionOf recordId =
              some .approved := by
      intro recordId record found own pending
      rw [manager, ApprovalManager.decisionOf, lookup_settleAll_waitingIds, found, Option.map_some,
        Option.map_some, if_pos ⟨own, pending⟩]
    constructor
    · rintro decides _ toolName ⟨recordId, record, found, own, rfl, pending⟩
      have decided := decides success recordId record found own pending
      rw [approved recordId record found own pending] at decided
      by_contra unnamed
      rw [if_neg unnamed] at decided
      cases decided
    · intro named _ recordId record found own pending
      rw [approved recordId record found own pending,
        if_pos (named known record.toolName ⟨recordId, record, found, own, rfl, pending⟩)]

/-- Two tools of an agent wait. -/
def twoWaiting : MasterState Unit where
  agentId := "master"
  approvalManager :=
    submitAll id "a" { sensitiveTools := ["read_mail", "send_mail"] } ["read_mail", "send_mail"]
  subAgents := [("a", {})]

/-- A person approves one of the tools, and the record of the other is approved too. -/
theorem unnamed_tool_approved :
    ¬∀ (master : MasterState Unit) (agentId : String) (toolNames : List String),
      (master.approveToolRequest agentId toolNames).1 = true →
        ∀ recordId record, master.approvalManager.records.lookup recordId = some record →
          record.agentId = agentId → record.decision = .pending →
            (master.approveToolRequest agentId toolNames).2.approvalManager.decisionOf recordId =
              some (if record.toolName ∈ toolNames then .approved else .pending) := by
  intro decides
  have decided := decides twoWaiting "a" ["read_mail"] (by decide) "send_mail" _ rfl
    (by decide) (by decide)
  exact absurd decided (by decide)

/-! ## The queue along a run -/

inductive ReviewEvent (V : Type) where
  | createSubAgent (agentId : String) (agent : SubAgent V)
  | toolRequest (request : ToolRequest)
  | approve (agentId : String) (toolNames : List String)
  | deny (agentId reason : String)
  | reset

/-- A master that has handled no request. -/
def MasterState.started (agentId : String) (autoApproveList sensitiveTools : List String)
    (toolRegistry : OrderedDict String ToolDefinition) (vault : Option (ToolVault V)) :
    MasterState V :=
  { agentId, approvalManager := { autoApproveList, sensitiveTools }, toolRegistry, vault }

section Queue

variable (lower : String → String)

def reviewStep (master : MasterState V) : ReviewEvent V → MasterState V
  | .createSubAgent agentId agent =>
      { master with subAgents := master.subAgents.assign agentId agent }
  | .toolRequest request => (master.handleToolRequest lower request).2
  | .approve agentId toolNames => (master.approveToolRequest agentId toolNames).2
  | .deny agentId reason => (master.denyToolRequest agentId reason).2
  | .reset => master.resetForNewTask

/-- The queue lists what waits, and nothing else. -/
def QueueTells (master : MasterState V) : Prop :=
  ∀ agentId toolName,
    toolName ∈ master.queuedTools agentId ↔ Waits master.approvalManager agentId toolName

/-- The identifiers of new records are new. -/
def IdsDrawn (master : MasterState V) : ReviewEvent V → Prop
  | .toolRequest request =>
      Drawn master.approvalManager request.freshId (Matches lower master request)
  | _ => True

/-- The request matches the tool, which needs a person. -/
def SentToReview (master : MasterState V) (request : ToolRequest) (toolName : String) : Prop :=
  Matches lower master request toolName ∧ NeedsPerson master.approvalManager toolName

/-- Nothing waits for an agent when it is denied, or for anyone at a reset; and a request
that is sent to review asks again for all that waits for its agent. -/
def QueueSpared (master : MasterState V) : ReviewEvent V → Prop
  | .toolRequest request =>
      (∃ toolName, SentToReview lower master request toolName) →
        ∀ toolName, Waits master.approvalManager request.requesterId toolName →
          SentToReview lower master request toolName
  | .deny agentId _ => ∀ toolName, ¬Waits master.approvalManager agentId toolName
  | .reset => ∀ agentId toolName, ¬Waits master.approvalManager agentId toolName
  | _ => True

variable {lower} {master : MasterState V}

theorem queuedTools_congr {first second : MasterState V}
    (same : second.manualReviewQueue = first.manualReviewQueue) (agentId : String) :
    second.queuedTools agentId = first.queuedTools agentId := by
  unfold MasterState.queuedTools
  rw [same]

theorem queuedTools_assign (master : MasterState V) (agentId : String) (payload : ReviewPayload)
    (other : String) :
    { master with
      manualReviewQueue := master.manualReviewQueue.assign agentId payload }.queuedTools other =
        if other = agentId then payload.matchedTools else master.queuedTools other := by
  unfold MasterState.queuedTools
  dsimp only
  rw [OrderedDict.lookup_assign]
  by_cases same : other = agentId
  · rw [if_pos same, if_pos same]
  · rw [if_neg same, if_neg same]

theorem queuedTools_erase (master : MasterState V) (agentId other : String) :
    { master with
      manualReviewQueue := master.manualReviewQueue.erase agentId }.queuedTools other =
        if other = agentId then [] else master.queuedTools other := by
  unfold MasterState.queuedTools
  dsimp only
  rw [OrderedDict.lookup_erase]
  by_cases same : other = agentId
  · rw [if_pos same, if_pos same]
  · rw [if_neg same, if_neg same]

/-- A request that is sent to review replaces what is queued for its agent and adds to what
waits; any other leaves both as they are. -/
theorem review_handleToolRequest {request : ToolRequest}
    (drawn : Drawn master.approvalManager request.freshId (Matches lower master request)) :
    ((∀ toolName, ¬SentToReview lower master request toolName) ∧
        ∀ agentId toolName,
          (master.handleToolRequest lower request).2.queuedTools agentId =
              master.queuedTools agentId ∧
            (Waits (master.handleToolRequest lower request).2.approvalManager agentId toolName ↔
              Waits master.approvalManager agentId toolName)) ∨
      ∃ sensitive, sensitive ≠ [] ∧
        (∀ toolName, toolName ∈ sensitive ↔ SentToReview lower master request toolName) ∧
        ∀ agentId toolName,
          (master.handleToolRequest lower request).2.queuedTools agentId =
              (if agentId = request.requesterId then sensitive else master.queuedTools agentId) ∧
            (Waits (master.handleToolRequest lower request).2.approvalManager agentId toolName ↔
              Waits master.approvalManager agentId toolName ∨
                agentId = request.requesterId ∧ toolName ∈ sensitive) := by
  have decides := decides_verdictOn lower master request
  rcases handleToolRequest_cases lower master request with
    ⟨nothing, requests, after⟩ | ⟨toolDesc, reason, requests, after⟩
  · rw [nothing] at decides
    cases decides with
    | notFound unmatched =>
        rw [after]
        exact .inl ⟨fun toolName sent => unmatched toolName sent.1, fun _ _ => ⟨rfl, Iff.rfl⟩⟩
  · rw [after]
    generalize master.verdictOn lower request = verdict at decides
    cases decides with
    | notFound unmatched =>
        obtain ⟨manager, queue, -⟩ :=
          fields_close { master with pendingToolRequests := requests } request
        refine .inl ⟨fun toolName sent => unmatched toolName sent.1, fun agentId toolName =>
          ⟨queuedTools_congr queue agentId, ?_⟩⟩
        exact iff_of_eq (congrArg (Waits · agentId toolName) manager)
    | manualReview sensitive first listed =>
        have some : Drawn master.approvalManager request.freshId (· ∈ sensitive) :=
          drawn.mono fun toolName member => ((listed toolName).mp member).1
        refine .inr ⟨sensitive, first, listed, fun agentId toolName =>
          ⟨queuedTools_assign _ request.requesterId ⟨toolDesc, reason, sensitive⟩ agentId, ?_⟩⟩
        refine (waits_submitAll some request.requesterId agentId toolName).trans ?_
        refine or_congr Iff.rfl (and_congr_right fun _ => ?_)
        exact ⟨And.left, fun member => ⟨member, ((listed toolName).mp member).2.2⟩⟩
    | approved matched approvalMode listed spared =>
        have all : Drawn master.approvalManager request.freshId (· ∈ matched) :=
          drawn.mono fun toolName => (listed toolName).mp
        have calm : ∀ toolName ∈ matched, ¬NeedsPerson master.approvalManager toolName :=
          fun toolName member => spared toolName ((listed toolName).mp member)
        obtain ⟨manager, queue⟩ :=
          fields_carryOut_approved { master with pendingToolRequests := requests } request toolDesc
            reason matched approvalMode
        refine .inl ⟨fun toolName sent => spared toolName sent.1 sent.2, fun agentId toolName =>
          ⟨queuedTools_congr queue agentId, ?_⟩⟩
        rw [manager]
        exact waits_approveAll all calm request.requesterId master.agentId _ agentId toolName

theorem queueTells_toolRequest_iff {request : ToolRequest} (tells : QueueTells master)
    (drawn : Drawn master.approvalManager request.freshId (Matches lower master request)) :
    QueueTells (master.handleToolRequest lower request).2 ↔
      QueueSpared lower master (.toolRequest request) := by
  rcases review_handleToolRequest drawn with ⟨calm, same⟩ | ⟨sensitive, first, listed, changed⟩
  · constructor
    · rintro _ ⟨toolName, sent⟩
      exact absurd sent (calm toolName)
    · intro _ agentId toolName
      rw [(same agentId toolName).1, (same agentId toolName).2]
      exact tells agentId toolName
  · constructor
    · intro after _ toolName waits
      have queued := after request.requesterId toolName
      rw [(changed request.requesterId toolName).1, if_pos rfl,
        (changed request.requesterId toolName).2] at queued
      exact (listed toolName).mp (queued.mpr (.inl waits))
    · intro again agentId toolName
      rw [(changed agentId toolName).1, (changed agentId toolName).2]
      by_cases own : agentId = request.requesterId
      · rw [if_pos own]
        constructor
        · exact fun member => .inr ⟨own, member⟩
        · rintro (waits | ⟨-, member⟩)
          · obtain ⟨sent, member⟩ := List.exists_mem_of_ne_nil sensitive first
            rw [own] at waits
            exact (listed toolName).mpr (again ⟨sent, (listed sent).mp member⟩ toolName waits)
          · exact member
      · rw [if_neg own, tells agentId toolName]
        simp [own]

theorem queueTells_approve {agentId : String} (tells : QueueTells master)
    (toolNames : List String) :
    QueueTells (master.approveToolRequest agentId toolNames).2 := by
  by_cases known : master.subAgents.lookup agentId = none
  · rw [approveToolRequest_of_unknown known]
    exact tells
  · intro other toolName
    have queue : (master.approveToolRequest agentId toolNames).2.manualReviewQueue =
        master.manualReviewQueue.erase agentId := by
      obtain ⟨agent, found⟩ := Option.ne_none_iff_exists'.mp known
      unfold MasterState.approveToolRequest
      rw [found]
    have erased := (queuedTools_congr queue other).trans (queuedTools_erase master agentId other)
    rw [erased, (approvalManager_approveToolRequest known toolNames).2,
      waits_settleAll_waitingIds (by decide), ← tells other toolName]
    by_cases own : other = agentId <;> simp [own]

theorem queueTells_step_iff (tells : QueueTells master) {event : ReviewEvent V}
    (drawn : IdsDrawn lower master event) :
    QueueTells (reviewStep lower master event) ↔ QueueSpared lower master event := by
  cases event with
  | createSubAgent agentId agent => exact ⟨fun _ => trivial, fun _ => tells⟩
  | toolRequest request => exact queueTells_toolRequest_iff tells drawn
  | approve agentId toolNames =>
      exact ⟨fun _ => trivial, fun _ => queueTells_approve tells toolNames⟩
  | deny agentId reason =>
      -- Denying settles the records and leaves the queue.
      have denied (other toolName : String) :
          Waits (reviewStep lower master (.deny agentId reason)).approvalManager other toolName ↔
            other ≠ agentId ∧ Waits master.approvalManager other toolName :=
        waits_settleAll_waitingIds (by decide) _ _ _ agentId other toolName
      constructor
      · intro after toolName waits
        have queued := (after agentId toolName).mp ((tells agentId toolName).mpr waits)
        exact ((denied agentId toolName).mp queued).1 rfl
      · intro nothing other toolName
        rw [denied]
        refine (tells other toolName).trans ⟨fun waits => ⟨?_, waits⟩, And.right⟩
        rintro rfl
        exact nothing toolName waits
  | reset =>
      -- Resetting empties the queue and keeps what waits.
      constructor
      · intro after agentId toolName waits
        exact absurd ((after agentId toolName).mpr ((waits_clearResolved ..).mpr waits))
          List.not_mem_nil
      · intro nothing agentId toolName
        refine iff_of_false List.not_mem_nil fun waits => nothing agentId toolName ?_
        exact (waits_clearResolved ..).mp waits

/--
Along a run the queue lists what waits for a person, and nothing else, exactly if
no agent is denied while something waits for it, the master is not reset while
anything waits, and an agent that is sent to review asks for all that waits for it.
-/
theorem queue_tells_iff (lower : String → String) (agentId : String)
    (autoApproveList sensitiveTools : List String)
    (toolRegistry : OrderedDict String ToolDefinition) (vault : Option (ToolVault V))
    {events : List (ReviewEvent V)}
    (drawn : StepsMeet (reviewStep lower) (IdsDrawn lower)
      (.started agentId autoApproveList sensitiveTools toolRegistry vault) events) :
    Throughout (reviewStep lower) QueueTells
        (.started agentId autoApproveList sensitiveTools toolRegistry vault) events ↔
      StepsMeet (reviewStep lower) (QueueSpared lower)
        (.started agentId autoApproveList sensitiveTools toolRegistry vault) events := by
  refine throughout_iff_stepsMeet_of_allowed (fun _ => True) QueueTells (IdsDrawn lower)
    (fun _ _ _ _ => trivial) (fun _ _ _ tells drawn => queueTells_step_iff tells drawn) trivial ?_
    drawn
  intro agentId toolName
  refine iff_of_false List.not_mem_nil ?_
  rintro ⟨recordId, record, found, -⟩
  cases found

end Queue

/-- A master with one sensitive tool. -/
def mailMaster : MasterState Unit :=
  .started "master" [] ["send_mail"] [("send_mail", ToolStore.plainDefinition "sends a mail")] none

def mailRequest : ToolRequest where
  requesterId := "a"
  content := some (.dict [("tool_description", .str "send a mail")])
  freshId := id

/-- An agent asks for the tool, and a person approves it. -/
def approvedRun : List (ReviewEvent Unit) :=
  [.createSubAgent "a" {}, .toolRequest mailRequest, .approve "a" ["send_mail"], .reset]

theorem approvedRun_drawn : StepsMeet (reviewStep id) (IdsDrawn id) mailMaster approvedRun :=
  ⟨trivial, fun _ _ => ⟨rfl, fun _ _ same => same⟩, trivial, trivial, trivial⟩

theorem queue_tells_iff_approved :
    Throughout (reviewStep id) QueueTells mailMaster approvedRun ↔
      StepsMeet (reviewStep id) (QueueSpared id) mailMaster approvedRun :=
  queue_tells_iff id _ _ _ _ _ approvedRun_drawn

/-- The request of an agent that is denied stays in the queue. -/
theorem denied_request_stays_queued :
    ¬Throughout (reviewStep id) QueueTells mailMaster
      [.toolRequest mailRequest, .deny "a" "no mail"] := by
  intro always
  have waits := (always.final "a" "send_mail").mp (by decide)
  exact ((waits_settleAll_waitingIds (by decide) _ _ _ "a" "a" "send_mail").mp waits).1 rfl

end YouMi.Coordinator
