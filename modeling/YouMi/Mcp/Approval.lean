import YouMi.Library.OrderedDict

/-!
# Approvals of tools

`ApprovalManager` keeps one record for each request it has not cleared, and a log to
which a copy of a record is added when it is submitted and when it is decided.  An
identifier of a record is drawn by whoever calls.  Timestamps are left out.
-/

namespace YouMi.Mcp

open YouMi.Library

inductive ApprovalLevel where
  | auto
  | manual
  | master
  deriving DecidableEq, Repr

inductive ApprovalDecision where
  | approved
  | denied
  | pending
  deriving DecidableEq, Repr

structure ApprovalRecord where
  recordId : String
  agentId : String := ""
  toolName : String := ""
  level : ApprovalLevel := .master
  decision : ApprovalDecision := .pending
  reason : String := ""
  decidedBy : String := ""
  deriving DecidableEq, Repr

theorem keyed_nil : ∀ entry ∈ ([] : OrderedDict String ApprovalRecord),
    entry.1 = entry.2.recordId :=
  fun _ member => nomatch member

/-- The records stand under their identifiers. -/
structure ApprovalManager where
  autoApproveList : List String := []
  sensitiveTools : List String := []
  records : OrderedDict String ApprovalRecord := []
  auditLog : List ApprovalRecord := []
  distinct : records.keys.Nodup := by exact List.nodup_nil
  keyed : ∀ entry ∈ records, entry.1 = entry.2.recordId := by exact keyed_nil

namespace ApprovalManager

/-- `self._records[record.record_id] = record`. -/
def put (manager : ApprovalManager) (record : ApprovalRecord) : ApprovalManager :=
  { manager with
    records := manager.records.assign record.recordId record
    distinct := OrderedDict.nodup_keys_assign manager.distinct
    keyed := by
      intro entry member
      rcases OrderedDict.mem_assign member with rfl | before
      · rfl
      · exact manager.keyed entry before }

/-- `self._audit_log.append(record.model_copy())`. -/
def log (manager : ApprovalManager) (record : ApprovalRecord) : ApprovalManager :=
  { manager with auditLog := manager.auditLog ++ [record] }

/-- The tool is on a list, or brings its own risk. -/
def evaluate (manager : ApprovalManager) (toolName : String) (riskLevel : Option String) :
    ApprovalLevel :=
  if toolName ∈ manager.autoApproveList then .auto
  else if toolName ∈ manager.sensitiveTools then .manual
  else if riskLevel = some "critical" then .manual
  else .master

/-- The record of a new request. -/
def newRecord (manager : ApprovalManager) (recordId agentId toolName : String)
    (riskLevel : Option String) : ApprovalRecord :=
  let level := manager.evaluate toolName riskLevel
  let record : ApprovalRecord := { recordId, agentId, toolName, level }
  if level = .auto then
    { record with
      decision := .approved
      decidedBy := "system"
      reason := "工具 '" ++ toolName ++ "' 在自动审批清单中" }
  else record

def submitRequest (manager : ApprovalManager) (recordId agentId toolName : String)
    (riskLevel : Option String) : ApprovalRecord × ApprovalManager :=
  let record := manager.newRecord recordId agentId toolName riskLevel
  (record, (manager.put record).log record)

/-- A pending record is decided; one that is decided stays as it is. -/
def settle (decision : ApprovalDecision) (manager : ApprovalManager)
    (recordId decidedBy reason : String) : Option ApprovalRecord × ApprovalManager :=
  match manager.records.lookup recordId with
  | none => (none, manager)
  | some record =>
      if record.decision ≠ .pending then (some record, manager)
      else
        let record := { record with decision, decidedBy, reason }
        (some record, (manager.put record).log record)

def approve (manager : ApprovalManager) (recordId decidedBy reason : String) :
    Option ApprovalRecord × ApprovalManager :=
  settle .approved manager recordId decidedBy reason

def deny (manager : ApprovalManager) (recordId decidedBy reason : String) :
    Option ApprovalRecord × ApprovalManager :=
  settle .denied manager recordId decidedBy reason

def getPendingForAgent (manager : ApprovalManager) (agentId : String) : List ApprovalRecord :=
  (manager.records.map Prod.snd).filter fun record =>
    record.agentId = agentId ∧ record.decision = .pending

/-- The decided records go, the log stays; the number of records that went. -/
def clearResolved (manager : ApprovalManager) : Nat × ApprovalManager :=
  ((manager.records.filter fun entry => entry.2.decision ≠ .pending).length,
    { manager with
      records := manager.records.filter fun entry => entry.2.decision = .pending
      distinct := manager.distinct.sublist (List.filter_sublist.map Prod.fst)
      keyed := fun entry member => manager.keyed entry (List.mem_filter.mp member).1 })

/-- `record.reason = reason` on the record that stands under the identifier. -/
def annotate (manager : ApprovalManager) (recordId reason : String) : ApprovalManager :=
  match manager.records.lookup recordId with
  | none => manager
  | some record => manager.put { record with reason }

/-- The decision of the record under an identifier. -/
def decisionOf (manager : ApprovalManager) (recordId : String) : Option ApprovalDecision :=
  (manager.records.lookup recordId).map ApprovalRecord.decision

variable {manager : ApprovalManager} {recordId agentId toolName decidedBy reason other : String}
  {riskLevel : Option String} {record : ApprovalRecord} {decision : ApprovalDecision}

/-! ## Records -/

theorem recordId_of_lookup (found : manager.records.lookup recordId = some record) :
    record.recordId = recordId :=
  (manager.keyed _ (OrderedDict.mem_of_lookup found)).symm

theorem lookup_put (manager : ApprovalManager) (record : ApprovalRecord) (other : String) :
    (manager.put record).records.lookup other =
      if other = record.recordId then some record else manager.records.lookup other :=
  OrderedDict.lookup_assign

theorem newRecord_fields (manager : ApprovalManager) (recordId agentId toolName : String)
    (riskLevel : Option String) :
    (manager.newRecord recordId agentId toolName riskLevel).recordId = recordId ∧
      (manager.newRecord recordId agentId toolName riskLevel).agentId = agentId ∧
      (manager.newRecord recordId agentId toolName riskLevel).toolName = toolName ∧
      (manager.newRecord recordId agentId toolName riskLevel).level =
        manager.evaluate toolName riskLevel := by
  unfold newRecord
  dsimp only
  split <;> exact ⟨rfl, rfl, rfl, rfl⟩

/-- Only what is on the list of automatic approvals is. -/
theorem evaluate_eq_auto_iff :
    manager.evaluate toolName riskLevel = .auto ↔ toolName ∈ manager.autoApproveList := by
  unfold evaluate
  split
  · rename_i listed
    simp [listed]
  · rename_i unlisted
    split
    · simp [unlisted]
    · split <;> simp [unlisted]

/-- A new record is approved if its tool is on the list of automatic approvals, and else
waits. -/
theorem newRecord_decision (manager : ApprovalManager) (recordId agentId toolName : String)
    (riskLevel : Option String) :
    (manager.newRecord recordId agentId toolName riskLevel).decision =
      if toolName ∈ manager.autoApproveList then .approved else .pending := by
  unfold newRecord
  dsimp only
  simp only [evaluate_eq_auto_iff]
  split <;> rfl

theorem lookup_submitRequest (manager : ApprovalManager)
    (recordId agentId toolName other : String) (riskLevel : Option String) :
    (manager.submitRequest recordId agentId toolName riskLevel).2.records.lookup other =
      if other = recordId then some (manager.newRecord recordId agentId toolName riskLevel)
      else manager.records.lookup other := by
  have stored := lookup_put manager (manager.newRecord recordId agentId toolName riskLevel) other
  rw [(newRecord_fields ..).1] at stored
  exact stored

/-- A decision leaves the manager alone, or decides a pending record and logs it. -/
theorem settle_cases (decision : ApprovalDecision) (manager : ApprovalManager)
    (recordId decidedBy reason : String) :
    (manager.decisionOf recordId ≠ some .pending ∧
        (settle decision manager recordId decidedBy reason).2 = manager) ∨
      ∃ record, manager.records.lookup recordId = some record ∧ record.decision = .pending ∧
        (settle decision manager recordId decidedBy reason).2 =
          (manager.put { record with decision, decidedBy, reason }).log
            { record with decision, decidedBy, reason } := by
  unfold settle decisionOf
  cases found : manager.records.lookup recordId with
  | none => exact .inl ⟨by simp, rfl⟩
  | some record =>
      dsimp only
      by_cases waits : record.decision = .pending
      · rw [if_neg fun decided => decided waits]
        exact .inr ⟨record, rfl, waits, rfl⟩
      · rw [if_pos waits]
        exact .inl ⟨by simpa using waits, rfl⟩

/-- Of the records that stand, the one that is meant is decided if it waits. -/
theorem lookup_settle (decision : ApprovalDecision) (manager : ApprovalManager)
    (recordId decidedBy reason other : String) :
    (settle decision manager recordId decidedBy reason).2.records.lookup other =
      (manager.records.lookup other).map fun record =>
        if other = recordId ∧ record.decision = .pending then
          { record with decision, decidedBy, reason }
        else record := by
  rcases settle_cases decision manager recordId decidedBy reason with
    ⟨decided, same⟩ | ⟨record, found, waits, settled⟩
  · rw [same]
    cases found : manager.records.lookup other with
    | none => rfl
    | some record =>
        have kept : ¬(other = recordId ∧ record.decision = .pending) := by
          rintro ⟨rfl, waits⟩
          exact decided (by rw [decisionOf, found, Option.map_some, waits])
        rw [Option.map_some, if_neg kept]
  · have own := recordId_of_lookup found
    rw [settled]
    change (manager.put _).records.lookup other = _
    rw [lookup_put]
    by_cases same : other = recordId
    · simp [same, own, found, waits]
    · simp [same, own]

theorem lookup_annotate (manager : ApprovalManager) (recordId reason other : String) :
    (manager.annotate recordId reason).records.lookup other =
      (manager.records.lookup other).map fun record =>
        if other = recordId then { record with reason } else record := by
  unfold annotate
  cases found : manager.records.lookup recordId with
  | none =>
      dsimp only
      by_cases same : other = recordId
      · rw [same, found]
        rfl
      · simp [same]
  | some record =>
      have own := recordId_of_lookup found
      dsimp only
      rw [lookup_put]
      by_cases same : other = recordId
      · simp [same, found, own]
      · simp [same, own]

theorem lookup_clearResolved (manager : ApprovalManager) (recordId : String) :
    manager.clearResolved.2.records.lookup recordId =
      (manager.records.lookup recordId).filter fun record => record.decision = .pending :=
  OrderedDict.lookup_filter manager.distinct _

theorem mem_getPendingForAgent :
    record ∈ manager.getPendingForAgent agentId ↔
      manager.records.lookup record.recordId = some record ∧ record.agentId = agentId ∧
        record.decision = .pending := by
  unfold getPendingForAgent
  rw [List.mem_filter, decide_eq_true_iff]
  refine and_congr ?_ Iff.rfl
  constructor
  · intro member
    obtain ⟨entry, there, rfl⟩ := List.mem_map.mp member
    refine OrderedDict.lookup_eq_some_of_mem manager.distinct ?_
    rw [← manager.keyed entry there]
    exact there
  · intro found
    exact List.mem_map.mpr ⟨_, OrderedDict.mem_of_lookup found, rfl⟩

end ApprovalManager

end YouMi.Mcp
