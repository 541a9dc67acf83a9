import YouMi.Library.Runs
import YouMi.Mcp.Approval
import Mathlib.Logic.Function.Basic

/-!
# The log of the approvals

Requests, decisions and clearings in any order.  Two draws of an identifier may give
the same text; then the later record takes the place of the earlier one.  So a record
is known here by the number of its submission, and a trail keeps that number beside
the record under each identifier and beside each entry of the log.
-/

namespace YouMi.Mcp

open YouMi.Library

inductive ApprovalEvent where
  | submitRequest (recordId agentId toolName : String) (riskLevel : Option String)
  | approve (recordId decidedBy reason : String)
  | deny (recordId decidedBy reason : String)
  | clearResolved

def ApprovalManager.step (manager : ApprovalManager) : ApprovalEvent → ApprovalManager
  | .submitRequest recordId agentId toolName riskLevel =>
      (manager.submitRequest recordId agentId toolName riskLevel).2
  | .approve recordId decidedBy reason => (manager.approve recordId decidedBy reason).2
  | .deny recordId decidedBy reason => (manager.deny recordId decidedBy reason).2
  | .clearResolved => manager.clearResolved.2

/-- A manager with the numbers of its records. -/
structure Trail where
  manager : ApprovalManager
  /-- The number of the record under an identifier. -/
  standing : String → Nat := fun _ => 0
  /-- For each entry of the log the number of the record it is a copy of. -/
  copied : List Nat := []
  submitted : Nat := 0

namespace Trail

/-- Before the first request. -/
def start (autoApproveList sensitiveTools : List String) : Trail :=
  { manager := { autoApproveList, sensitiveTools } }

def submit (trail : Trail) (recordId agentId toolName : String) (riskLevel : Option String) :
    Trail where
  manager := (trail.manager.submitRequest recordId agentId toolName riskLevel).2
  standing := Function.update trail.standing recordId trail.submitted
  copied := trail.copied ++ [trail.submitted]
  submitted := trail.submitted + 1

def settle (trail : Trail) (decision : ApprovalDecision) (recordId decidedBy reason : String) :
    Trail :=
  { trail with
    manager := (ApprovalManager.settle decision trail.manager recordId decidedBy reason).2
    copied :=
      if trail.manager.decisionOf recordId = some .pending then
        trail.copied ++ [trail.standing recordId]
      else trail.copied }

def step (trail : Trail) : ApprovalEvent → Trail
  | .submitRequest recordId agentId toolName riskLevel =>
      trail.submit recordId agentId toolName riskLevel
  | .approve recordId decidedBy reason => trail.settle .approved recordId decidedBy reason
  | .deny recordId decidedBy reason => trail.settle .denied recordId decidedBy reason
  | .clearResolved => { trail with manager := trail.manager.clearResolved.2 }

/-- The statuses logged for one record, in order. -/
def statuses (trail : Trail) (number : Nat) : List ApprovalDecision :=
  ((trail.copied.zip trail.manager.auditLog).filter (·.1 = number)).map (·.2.decision)

/-- What may be logged for a record. -/
def courses : List (List ApprovalDecision) :=
  [[.approved], [.pending], [.pending, .approved], [.pending, .denied]]

/-- The log and the records fit. -/
structure Sound (trail : Trail) : Prop where
  lengths : trail.copied.length = trail.manager.auditLog.length
  known : ∀ number ∈ trail.copied, number < trail.submitted
  standing : ∀ recordId record, trail.manager.records.lookup recordId = some record →
    trail.standing recordId < trail.submitted
  apart : ∀ first second one other, trail.manager.records.lookup first = some one →
    trail.manager.records.lookup second = some other →
      trail.standing first = trail.standing second → first = second
  course : ∀ number < trail.submitted, trail.statuses number ∈ courses
  last : ∀ recordId record, trail.manager.records.lookup recordId = some record →
    (trail.statuses (trail.standing recordId)).getLast? = some record.decision
  copies : ∀ entry ∈ trail.copied.zip trail.manager.auditLog, ∀ recordId record,
    trail.manager.records.lookup recordId = some record →
      trail.standing recordId = entry.1 → entry.2.recordId = recordId

variable {trail : Trail}

theorem manager_step (trail : Trail) (event : ApprovalEvent) :
    (trail.step event).manager = trail.manager.step event := by
  cases event <;> rfl

theorem sound_start (autoApproveList sensitiveTools : List String) :
    (start autoApproveList sensitiveTools).Sound where
  lengths := rfl
  known number member := by cases member
  standing recordId record found := by cases found
  apart first second one other found := by cases found
  course number small := by cases small
  last recordId record found := by cases found
  copies entry member := by cases member

/-- Between two trails one copy is logged: the numbers and the entries grow together. -/
structure Logs (trail after : Trail) (number : Nat) (record : ApprovalRecord) : Prop where
  copied : after.copied = trail.copied ++ [number]
  logged : after.manager.auditLog = trail.manager.auditLog ++ [record]

section Logs

variable {after : Trail} {number : Nat} {record : ApprovalRecord}

theorem Logs.lengths (logs : Logs trail after number record)
    (lengths : trail.copied.length = trail.manager.auditLog.length) :
    after.copied.length = after.manager.auditLog.length := by
  rw [logs.copied, logs.logged, List.length_append, List.length_append, lengths]
  rfl

/-- The numbers stay below a bound that the new one meets. -/
theorem Logs.known (logs : Logs trail after number record) {bound : Nat}
    (known : ∀ other ∈ trail.copied, other < bound) (new : number < bound) :
    ∀ other ∈ after.copied, other < bound := by
  rw [logs.copied]
  intro other member
  rcases List.mem_append.mp member with before | now
  · exact known other before
  · rw [List.mem_singleton.mp now]
    exact new

theorem Logs.entry_cases (logs : Logs trail after number record)
    (lengths : trail.copied.length = trail.manager.auditLog.length)
    {entry : Nat × ApprovalRecord} (member : entry ∈ after.copied.zip after.manager.auditLog) :
    entry ∈ trail.copied.zip trail.manager.auditLog ∨ entry = (number, record) := by
  rw [logs.copied, logs.logged, List.zip_append lengths] at member
  rcases List.mem_append.mp member with before | now
  · exact .inl before
  · exact .inr (List.mem_singleton.mp now)

/-- An entry added to the log is one more status of its record. -/
theorem Logs.statuses (logs : Logs trail after number record)
    (lengths : trail.copied.length = trail.manager.auditLog.length) (other : Nat) :
    after.statuses other =
      trail.statuses other ++ if number = other then [record.decision] else [] := by
  unfold Trail.statuses
  rw [logs.copied, logs.logged, List.zip_append lengths, List.filter_append, List.map_append]
  by_cases same : number = other <;> simp [same]

end Logs

/-- A request logs its new record. -/
theorem logs_submit (trail : Trail) (recordId agentId toolName : String)
    (riskLevel : Option String) :
    Logs trail (trail.submit recordId agentId toolName riskLevel) trail.submitted
      (trail.manager.newRecord recordId agentId toolName riskLevel) :=
  ⟨rfl, rfl⟩

/-- A decision logs the record it settles, or nothing has changed. -/
theorem settle_logs (trail : Trail) (decision : ApprovalDecision)
    (recordId decidedBy reason : String) :
    trail.settle decision recordId decidedBy reason = trail ∨
      ∃ record, trail.manager.records.lookup recordId = some record ∧
        record.decision = .pending ∧
        (∀ other, (trail.settle decision recordId decidedBy reason).manager.records.lookup other =
          if other = recordId then some { record with decision, decidedBy, reason }
          else trail.manager.records.lookup other) ∧
        Logs trail (trail.settle decision recordId decidedBy reason) (trail.standing recordId)
          { record with decision, decidedBy, reason } := by
  rcases ApprovalManager.settle_cases decision trail.manager recordId decidedBy reason with
    ⟨idle, same⟩ | ⟨record, found, waits, settled⟩
  · left
    unfold settle
    rw [same, if_neg idle]
  · right
    have own_id := ApprovalManager.recordId_of_lookup found
    have pending : trail.manager.decisionOf recordId = some .pending := by
      unfold ApprovalManager.decisionOf
      rw [found, Option.map_some, waits]
    refine ⟨record, found, waits, ?_, if_pos pending,
      congrArg ApprovalManager.auditLog settled⟩
    intro other
    have stored := congrArg (fun m => m.records.lookup other) settled
    refine stored.trans ((ApprovalManager.lookup_put ..).trans ?_)
    rw [← own_id]

/-- A record of which no copy is logged has no statuses. -/
theorem statuses_of_unknown (sound : trail.Sound) {number : Nat}
    (large : trail.submitted ≤ number) : trail.statuses number = [] := by
  unfold statuses
  rw [List.map_eq_nil_iff, List.filter_eq_nil_iff]
  intro entry member same
  have small := sound.known entry.1 (List.of_mem_zip member).1
  have equal : entry.1 = number := of_decide_eq_true same
  omega

/-- Only one course ends with a pending record. -/
theorem course_of_pending {statuses : List ApprovalDecision} (course : statuses ∈ courses)
    (last : statuses.getLast? = some .pending) : statuses = [.pending] := by
  simp only [courses, List.mem_cons, List.not_mem_nil, or_false] at course
  rcases course with rfl | rfl | rfl | rfl
  · cases last
  · rfl
  · cases last
  · cases last

/-- A course that has reached a decision does not go on. -/
theorem course_ends {statuses more : List ApprovalDecision} (course : statuses ∈ courses)
    (longer : statuses ++ more ∈ courses) {decision : ApprovalDecision}
    (last : statuses.getLast? = some decision) (decided : decision ≠ .pending) : more = [] := by
  simp only [courses, List.mem_cons, List.not_mem_nil, or_false] at course longer
  rcases course with rfl | rfl | rfl | rfl
  · simpa using longer
  · exact absurd (Option.some.inj last).symm decided
  · simpa using longer
  · simpa using longer

/-- A record found after a request is the new one, or it was there under another name. -/
theorem lookup_submit_cases {recordId agentId toolName : String} {riskLevel : Option String}
    {other : String} {record : ApprovalRecord}
    (found : (trail.submit recordId agentId toolName riskLevel).manager.records.lookup other =
      some record) :
    (other = recordId ∧ record = trail.manager.newRecord recordId agentId toolName riskLevel) ∨
      (other ≠ recordId ∧ trail.manager.records.lookup other = some record) := by
  have there := (trail.manager.lookup_submitRequest recordId agentId toolName other
    riskLevel).symm.trans found
  split at there
  · rename_i same
    exact .inl ⟨same, (Option.some.inj there).symm⟩
  · rename_i ne
    exact .inr ⟨ne, there⟩

theorem sound_submit (sound : trail.Sound) (recordId agentId toolName : String)
    (riskLevel : Option String) :
    (trail.submit recordId agentId toolName riskLevel).Sound := by
  have logs := logs_submit trail recordId agentId toolName riskLevel
  have grows := logs.statuses sound.lengths
  have named : ∀ {other}, other ≠ recordId →
      (trail.submit recordId agentId toolName riskLevel).standing other = trail.standing other :=
    fun ne => Function.update_of_ne ne _ _
  have new : (trail.submit recordId agentId toolName riskLevel).standing recordId =
      trail.submitted := Function.update_self ..
  have first_status : trail.statuses trail.submitted = [] :=
    statuses_of_unknown sound (Nat.le_refl _)
  constructor
  · exact logs.lengths sound.lengths
  · exact logs.known (fun number before => Nat.lt_succ_of_lt (sound.known number before))
      (Nat.lt_succ_self _)
  · intro other record found
    rcases lookup_submit_cases found with ⟨rfl, -⟩ | ⟨ne, there⟩
    · rw [new]
      exact Nat.lt_succ_self _
    · rw [named ne]
      exact Nat.lt_succ_of_lt (sound.standing other record there)
  · intro first second one other found found' same
    rcases lookup_submit_cases found with ⟨rfl, -⟩ | ⟨ne, there⟩ <;>
      rcases lookup_submit_cases found' with ⟨rfl, -⟩ | ⟨ne', there'⟩
    · rfl
    · rw [new, named ne'] at same
      exact absurd same (Nat.ne_of_gt (sound.standing second other there'))
    · rw [new, named ne] at same
      exact absurd same (Nat.ne_of_lt (sound.standing first one there))
    · rw [named ne, named ne'] at same
      exact sound.apart first second one other there there' same
  · intro number small
    rw [grows]
    by_cases last : trail.submitted = number
    · subst last
      rw [if_pos rfl, first_status, List.nil_append, ApprovalManager.newRecord_decision]
      split <;> decide
    · rw [if_neg last, List.append_nil]
      have earlier : number < trail.submitted + 1 := small
      exact sound.course number (by omega)
  · intro other record found
    rw [grows]
    rcases lookup_submit_cases found with ⟨rfl, rfl⟩ | ⟨ne, there⟩
    · rw [new, if_pos rfl, first_status]
      rfl
    · rw [named ne, if_neg (Nat.ne_of_gt (sound.standing other record there)), List.append_nil]
      exact sound.last other record there
  · intro entry member other record found same
    rcases logs.entry_cases sound.lengths member with before | rfl
    · have small := sound.known entry.1 (List.of_mem_zip before).1
      rcases lookup_submit_cases found with ⟨rfl, -⟩ | ⟨ne, there⟩
      · rw [new] at same
        omega
      · rw [named ne] at same
        exact sound.copies entry before other record there same
    · rcases lookup_submit_cases found with ⟨rfl, -⟩ | ⟨ne, there⟩
      · exact (ApprovalManager.newRecord_fields ..).1
      · rw [named ne] at same
        exact absurd same (Nat.ne_of_lt (sound.standing other record there))

/-- A decision of a pending record adds it to the record's course. -/
theorem sound_settle (sound : trail.Sound) {decision : ApprovalDecision}
    (decided : decision ≠ .pending) (recordId decidedBy reason : String) :
    (trail.settle decision recordId decidedBy reason).Sound := by
  rcases settle_logs trail decision recordId decidedBy reason with
    unchanged | ⟨record, found, waits, lookups, logs⟩
  · rw [unchanged]
    exact sound
  have grows := logs.statuses sound.lengths
  have before : ∀ {other after}, (trail.settle decision recordId decidedBy
      reason).manager.records.lookup other = some after →
        ∃ old, trail.manager.records.lookup other = some old := by
    intro other after there
    rw [lookups] at there
    split at there
    · rename_i same
      exact ⟨record, same ▸ found⟩
    · exact ⟨after, there⟩
  have first : trail.statuses (trail.standing recordId) = [.pending] :=
    course_of_pending (sound.course _ (sound.standing recordId record found))
      (waits ▸ sound.last recordId record found)
  constructor
  · exact logs.lengths sound.lengths
  · exact logs.known sound.known (sound.standing recordId record found)
  · intro other after there
    obtain ⟨old, was⟩ := before there
    exact sound.standing other old was
  · intro one two after after' there there' same
    obtain ⟨old, was⟩ := before there
    obtain ⟨old', was'⟩ := before there'
    exact sound.apart one two old old' was was' same
  · intro number small
    rw [grows]
    by_cases own : trail.standing recordId = number
    · rw [if_pos own, ← own, first]
      change [ApprovalDecision.pending] ++ [decision] ∈ courses
      cases decision with
      | approved => decide
      | denied => decide
      | pending => exact absurd rfl decided
    · rw [if_neg own, List.append_nil]
      exact sound.course number small
  · intro other after there
    change ((trail.settle decision recordId decidedBy reason).statuses
      (trail.standing other)).getLast? = _
    rw [grows]
    rw [lookups] at there
    split at there
    · rename_i same
      rw [same, if_pos rfl, ← Option.some.inj there]
      exact List.getLast?_concat
    · rename_i ne
      have apart : ¬trail.standing recordId = trail.standing other :=
        fun same => ne (sound.apart recordId other record after found there same).symm
      rw [if_neg apart, List.append_nil]
      exact sound.last other after there
  · intro entry member other after there same
    obtain ⟨old, was⟩ := before there
    rcases logs.entry_cases sound.lengths member with earlier | rfl
    · exact sound.copies entry earlier other old was same
    · change record.recordId = other
      rw [sound.apart other recordId old record was found same]
      exact ApprovalManager.recordId_of_lookup found

theorem sound_clearResolved (sound : trail.Sound) : (trail.step .clearResolved).Sound := by
  have before : ∀ {recordId record},
      (trail.step .clearResolved).manager.records.lookup recordId = some record →
        trail.manager.records.lookup recordId = some record := by
    intro recordId record found
    have there := (trail.manager.lookup_clearResolved recordId).symm.trans found
    exact (Option.filter_eq_some_iff.mp there).1
  exact ⟨sound.lengths, sound.known,
    fun recordId record found => sound.standing recordId record (before found),
    fun first second one other found found' =>
      sound.apart first second one other (before found) (before found'),
    sound.course,
    fun recordId record found => sound.last recordId record (before found),
    fun entry member recordId record found =>
      sound.copies entry member recordId record (before found)⟩

theorem sound_step (trail : Trail) (event : ApprovalEvent) (sound : trail.Sound) :
    (trail.step event).Sound := by
  cases event with
  | submitRequest recordId agentId toolName riskLevel =>
      exact sound_submit sound recordId agentId toolName riskLevel
  | approve recordId decidedBy reason =>
      exact sound_settle sound (by decide) recordId decidedBy reason
  | deny recordId decidedBy reason => exact sound_settle sound (by decide) recordId decidedBy reason
  | clearResolved => exact sound_clearResolved sound

theorem sound_run (trail : Trail) (events : List ApprovalEvent) (sound : trail.Sound) :
    (run step trail events).Sound :=
  Reachable.invariant Sound sound sound_step (Reachable.of_run trail events)

/-- The statuses of a record are only added to. -/
theorem statuses_step (sound : trail.Sound) (event : ApprovalEvent) (number : Nat) :
    ∃ more, (trail.step event).statuses number = trail.statuses number ++ more := by
  have settles : ∀ decision recordId decidedBy reason, ∃ more,
      (trail.settle decision recordId decidedBy reason).statuses number =
        trail.statuses number ++ more := by
    intro decision recordId decidedBy reason
    rcases settle_logs trail decision recordId decidedBy reason with
      unchanged | ⟨record, found, waits, lookups, logs⟩
    · rw [unchanged]
      exact ⟨[], (List.append_nil _).symm⟩
    · exact ⟨_, logs.statuses sound.lengths number⟩
  cases event with
  | submitRequest recordId agentId toolName riskLevel =>
      exact ⟨_, (logs_submit ..).statuses sound.lengths number⟩
  | approve recordId decidedBy reason => exact settles _ _ _ _
  | deny recordId decidedBy reason => exact settles _ _ _ _
  | clearResolved => exact ⟨[], (List.append_nil _).symm⟩

theorem statuses_run (sound : trail.Sound) (events : List ApprovalEvent) (number : Nat) :
    ∃ more, (run step trail events).statuses number = trail.statuses number ++ more := by
  induction events generalizing trail with
  | nil => exact ⟨[], (List.append_nil _).symm⟩
  | cons event rest ih =>
      obtain ⟨more, now⟩ := statuses_step sound event number
      obtain ⟨later, after⟩ := ih (sound_step trail event sound)
      refine ⟨more ++ later, ?_⟩
      rw [run_cons, after, now, List.append_assoc]

/-- A record that is decided has the same decision in every later state. -/
theorem decision_kept (sound : trail.Sound) {recordId : String} {record : ApprovalRecord}
    (found : trail.manager.records.lookup recordId = some record)
    (decided : record.decision ≠ .pending) (later : List ApprovalEvent) {laterId : String}
    {after : ApprovalRecord}
    (found_later : (run step trail later).manager.records.lookup laterId = some after)
    (same : (run step trail later).standing laterId = trail.standing recordId) :
    after.decision = record.decision := by
  have sound_later := sound_run trail later sound
  have last := sound.last recordId record found
  obtain ⟨more, grown⟩ := statuses_run sound later (trail.standing recordId)
  have course := sound.course _ (sound.standing recordId record found)
  have course_later := sound_later.course _ (sound_later.standing laterId after found_later)
  rw [same, grown] at course_later
  have last_later := sound_later.last laterId after found_later
  rw [same, grown, course_ends course course_later last decided, List.append_nil, last]
    at last_later
  exact (Option.some.inj last_later).symm

/-- Clearing keeps the log and every pending record. -/
theorem clearResolved_keeps (manager : ApprovalManager) :
    manager.clearResolved.2.auditLog = manager.auditLog ∧
      ∀ recordId record, record.decision = .pending →
        (manager.clearResolved.2.records.lookup recordId = some record ↔
          manager.records.lookup recordId = some record) := by
  refine ⟨rfl, ?_⟩
  intro recordId record waits
  rw [manager.lookup_clearResolved, Option.filter_eq_some_iff]
  simp [waits]

/-- What the log and the records say of each other, now and later. -/
structure LogTells (trail : Trail) : Prop where
  /-- What is logged for a record is one of the four courses. -/
  course : ∀ number < trail.submitted, trail.statuses number ∈ courses
  /-- Each entry of the log is a copy of a submitted record. -/
  copied : trail.copied.length = trail.manager.auditLog.length ∧
    ∀ number ∈ trail.copied, number < trail.submitted
  /-- The copies of a record that exists carry its identifier. -/
  copies : ∀ recordId record, trail.manager.records.lookup recordId = some record →
    trail.standing recordId < trail.submitted ∧
      ∀ entry ∈ trail.copied.zip trail.manager.auditLog,
        entry.1 = trail.standing recordId → entry.2.recordId = recordId
  /-- The last of them carries its status. -/
  last : ∀ recordId record, trail.manager.records.lookup recordId = some record →
    (trail.statuses (trail.standing recordId)).getLast? = some record.decision
  /-- A decided record has its status in every later state. -/
  decided : ∀ recordId record, trail.manager.records.lookup recordId = some record →
    record.decision ≠ .pending → ∀ later laterId after,
      (run step trail later).manager.records.lookup laterId = some after →
        (run step trail later).standing laterId = trail.standing recordId →
          after.decision = record.decision
  /-- Clearing changes neither the log nor a pending record. -/
  cleared : trail.manager.clearResolved.2.auditLog = trail.manager.auditLog ∧
    ∀ recordId record, record.decision = .pending →
      (trail.manager.clearResolved.2.records.lookup recordId = some record ↔
        trail.manager.records.lookup recordId = some record)

/-- After every run from an empty manager the log tells what became of each record. -/
theorem approval_log_tells (autoApproveList sensitiveTools : List String)
    (events : List ApprovalEvent) :
    (run step (start autoApproveList sensitiveTools) events).manager =
        run ApprovalManager.step { autoApproveList, sensitiveTools } events ∧
      (run step (start autoApproveList sensitiveTools) events).LogTells := by
  have sound := sound_run _ events (sound_start autoApproveList sensitiveTools)
  refine ⟨?_, sound.course, ⟨sound.lengths, sound.known⟩, ?_, sound.last, ?_, ?_⟩
  · exact run_simulates step Trail.manager (fun _ => True) (fun _ _ _ => trivial)
      (fun trail event _ => manager_step trail event) trivial events
  · intro recordId record found
    exact ⟨sound.standing recordId record found,
      fun entry member same => sound.copies entry member recordId record found same.symm⟩
  · intro recordId record found decided later laterId after
    exact decision_kept sound found decided later
  · exact clearResolved_keeps _

end Trail

end YouMi.Mcp
