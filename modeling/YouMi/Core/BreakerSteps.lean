import YouMi.Core.Resilience

/-!
# What happens to the traffic through a breaker

Each event lets a call through uncounted, counts a probe, begins a half-open
phase, rejects a call, or ends an admitted call.  `Traffic.steps` says so once,
and `Tidy` collects what holds of every traffic.
-/

namespace YouMi.Core

open YouMi.Library

namespace CircuitBreaker

variable {b : CircuitBreaker} {now : Int}

theorem report_config (report : Report) : (b.report now report).config = b.config := by
  cases report with
  | success =>
      change (recordSuccess b).config = _
      unfold recordSuccess
      dsimp only
      split
      · rfl
      · split <;> rfl
  | failure =>
      change (recordFailure now b).config = _
      unfold recordFailure
      dsimp only
      split
      · rfl
      · split
        · rfl
        · split <;> rfl
  | nested => rfl
  | unreported => rfl

/-- A disabled breaker only counts what is reported to it. -/
theorem report_of_disabled (now : Int) (disabled : b.config.enabled = false) (report : Report) :
    (b.report now report).state = b.state ∧
      (b.report now report).failureCount = b.failureCount := by
  cases report with
  | success =>
      change (recordSuccess b).state = _ ∧ (recordSuccess b).failureCount = _
      unfold recordSuccess
      dsimp only
      rw [if_pos disabled]
      exact ⟨rfl, rfl⟩
  | failure =>
      change (recordFailure now b).state = _ ∧ (recordFailure now b).failureCount = _
      unfold recordFailure
      dsimp only
      rw [if_pos disabled]
      exact ⟨rfl, rfl⟩
  | nested => exact ⟨rfl, rfl⟩
  | unreported => exact ⟨rfl, rfl⟩

/-- `before_call` lets a call pass uncounted when the breaker is off or closed. -/
theorem beforeCall_of_free (now : Int) (free : b.config.enabled = false ∨ b.state = .closed) :
    b.beforeCall now = (.ok (), b) := by
  unfold beforeCall
  rcases free with disabled | closed
  · rw [if_pos disabled]
  · rw [closed]
    split <;> rfl

theorem admitProbe_of_room (room : b.halfOpenInFlight < b.config.halfOpenMaxCalls) :
    b.admitProbe = (.ok (), { b with halfOpenInFlight := b.halfOpenInFlight + 1 }) :=
  if_neg (Nat.not_le_of_lt room)

theorem admitProbe_of_full (full : b.config.halfOpenMaxCalls ≤ b.halfOpenInFlight) :
    b.admitProbe = (.error ⟨b.name, 0⟩, { b with rejected := b.rejected + 1 }) :=
  if_pos full

section Enabled

variable (enabled : b.config.enabled = true)

include enabled

theorem beforeCall_of_halfOpen (now : Int) (halfOpen : b.state = .halfOpen) :
    b.beforeCall now = b.admitProbe := by
  unfold beforeCall
  rw [if_neg (by simp [enabled]), halfOpen]

/-- Once it has recovered, an open breaker begins a half-open phase with one probe. -/
theorem beforeCall_of_recovered (opened : b.state = .opened)
    (recovered : b.config.recoveryTimeout ≤ now - b.openedAt) :
    b.beforeCall now = (.ok (), { b.toHalfOpen with halfOpenInFlight := 1 }) := by
  unfold beforeCall
  rw [if_neg (by simp [enabled]), opened]
  dsimp only
  rw [if_pos recovered]
  exact admitProbe_of_room b.config.halfOpenMaxCalls_pos

theorem beforeCall_of_early (opened : b.state = .opened)
    (early : ¬ b.config.recoveryTimeout ≤ now - b.openedAt) :
    b.beforeCall now =
      (.error ⟨b.name, b.config.recoveryTimeout - (now - b.openedAt)⟩,
        { b with rejected := b.rejected + 1 }) := by
  unfold beforeCall
  rw [if_neg (by simp [enabled]), opened]
  dsimp only
  rw [if_neg early]

theorem recordSuccess_of_halfOpen (halfOpen : b.state = .halfOpen) :
    b.recordSuccess.state = .closed ∧ b.recordSuccess.failureCount = 0 := by
  unfold recordSuccess
  dsimp only
  rw [if_neg (by simp [enabled]), if_pos halfOpen]
  exact ⟨rfl, rfl⟩

theorem recordSuccess_of_not_halfOpen (notHalfOpen : b.state ≠ .halfOpen) :
    b.recordSuccess.state = b.state ∧ b.recordSuccess.failureCount = 0 ∧
      b.recordSuccess.openedAt = b.openedAt := by
  unfold recordSuccess
  dsimp only
  rw [if_neg (by simp [enabled]), if_neg notHalfOpen]
  exact ⟨rfl, rfl, rfl⟩

theorem recordFailure_of_halfOpen (now : Int) (halfOpen : b.state = .halfOpen) :
    (b.recordFailure now).state = .opened := by
  unfold recordFailure
  dsimp only
  rw [if_neg (by simp [enabled]), if_pos halfOpen]
  rfl

/-- A failure outside of a half-open phase trips the breaker at the threshold. -/
theorem recordFailure_of_not_halfOpen (now : Int) (notHalfOpen : b.state ≠ .halfOpen) :
    (b.config.failureThreshold ≤ b.failureCount + 1 ∧ (b.recordFailure now).state = .opened ∧
        (b.recordFailure now).openedAt = now) ∨
      (b.failureCount + 1 < b.config.failureThreshold ∧
        (b.recordFailure now).state = b.state ∧
        (b.recordFailure now).failureCount = b.failureCount + 1 ∧
        (b.recordFailure now).openedAt = b.openedAt) := by
  unfold recordFailure
  dsimp only
  rw [if_neg (by simp [enabled]), if_neg notHalfOpen]
  split
  · rename_i reached
    exact .inl ⟨reached, rfl, rfl⟩
  · rename_i below
    exact .inr ⟨Nat.lt_of_not_le below, rfl, rfl, rfl⟩

/-- A reported outcome ends a half-open phase. -/
theorem report_leaves_halfOpen (halfOpen : b.state = .halfOpen) {report : Report}
    (outcome : report = .success ∨ report = .failure) :
    (b.report now report).state ≠ .halfOpen := by
  rcases outcome with rfl | rfl
  · intro still
    have closed := (recordSuccess_of_halfOpen enabled halfOpen).1
    rw [show b.report now .success = b.recordSuccess from rfl, closed] at still
    cases still
  · intro still
    have opened := recordFailure_of_halfOpen enabled now halfOpen
    rw [show b.report now .failure = b.recordFailure now from rfl, opened] at still
    cases still

/-- No report begins a half-open phase. -/
theorem halfOpen_of_report {report : Report}
    (halfOpen : (b.report now report).state = .halfOpen) :
    b.state = .halfOpen ∧ (report = .nested ∨ report = .unreported) := by
  by_cases before : b.state = .halfOpen
  · refine ⟨before, ?_⟩
    cases report with
    | success => exact absurd halfOpen (report_leaves_halfOpen enabled before (.inl rfl))
    | failure => exact absurd halfOpen (report_leaves_halfOpen enabled before (.inr rfl))
    | nested => exact .inl rfl
    | unreported => exact .inr rfl
  · cases report with
    | success =>
        have same := (recordSuccess_of_not_halfOpen enabled before).1
        exact absurd (same.symm.trans halfOpen) before
    | failure =>
        rcases recordFailure_of_not_halfOpen enabled now before with
          ⟨_, opened, _⟩ | ⟨_, same, _⟩
        · cases opened.symm.trans halfOpen
        · exact absurd (same.symm.trans halfOpen) before
    | nested => exact absurd halfOpen before
    | unreported => exact absurd halfOpen before

end Enabled

end CircuitBreaker

namespace Traffic

open CircuitBreaker

/-- The traffic after the admission of a call. -/
def letThrough (t : Traffic) (breaker : CircuitBreaker) (phase : Nat) : Traffic :=
  ⟨breaker, phase, t.nextId + 1, t.outstanding ++ [⟨t.nextId, phase⟩]⟩

/-- The traffic after the end of a call. -/
def without (t : Traffic) (breaker : CircuitBreaker) (id : Nat) : Traffic :=
  { t with
    breaker := breaker
    outstanding := t.outstanding.filter fun ticket => ticket.id ≠ id }

/-- All that an event can do. -/
inductive Steps (t : Traffic) : Event → Traffic → Prop
  | waved {now} (free : t.breaker.config.enabled = false ∨ t.breaker.state = .closed) :
      Steps t (.arrive now) (t.letThrough t.breaker t.phase)
  | probed {now} (enabled : t.breaker.config.enabled = true)
      (halfOpen : t.breaker.state = .halfOpen)
      (room : t.breaker.halfOpenInFlight < t.breaker.config.halfOpenMaxCalls) :
      Steps t (.arrive now)
        (t.letThrough { t.breaker with halfOpenInFlight := t.breaker.halfOpenInFlight + 1 } t.phase)
  | began {now} (enabled : t.breaker.config.enabled = true) (opened : t.breaker.state = .opened)
      (recovered : t.breaker.config.recoveryTimeout ≤ now - t.breaker.openedAt) :
      Steps t (.arrive now)
        (t.letThrough { t.breaker.toHalfOpen with halfOpenInFlight := 1 } (t.phase + 1))
  | rejected {now} (enabled : t.breaker.config.enabled = true)
      (shut : t.breaker.state = .opened ∧
          now - t.breaker.openedAt < t.breaker.config.recoveryTimeout ∨
        t.breaker.state = .halfOpen ∧
          t.breaker.config.halfOpenMaxCalls ≤ t.breaker.halfOpenInFlight) :
      Steps t (.arrive now)
        { t with breaker := { t.breaker with rejected := t.breaker.rejected + 1 } }
  | ended {ticket report now} (member : ticket ∈ t.outstanding) :
      Steps t (.finish ticket.id report now)
        (t.without (t.breaker.report now report) ticket.id)
  | ignored {id report now} (unknown : ∀ ticket ∈ t.outstanding, ticket.id ≠ id) :
      Steps t (.finish id report now) t

theorem arrive_of_admitted {t : Traffic} {now : Int} {b : CircuitBreaker}
    (admitted : t.breaker.beforeCall now = (.ok (), b)) :
    t.arrive now = t.letThrough b (t.nextPhase b) := by
  unfold arrive
  rw [admitted]
  rfl

theorem nextPhase_of_same {t : Traffic} {b : CircuitBreaker}
    (same : b.state = t.breaker.state) : t.nextPhase b = t.phase := by
  refine if_neg fun change => ?_
  rw [← same, change.2] at change
  cases change.1

/-- A call admitted without a change of state joins the current phase. -/
theorem arrive_of_admitted_same {t : Traffic} {now : Int} {b : CircuitBreaker}
    (admitted : t.breaker.beforeCall now = (.ok (), b)) (same : b.state = t.breaker.state) :
    t.arrive now = t.letThrough b t.phase := by
  rw [arrive_of_admitted admitted, nextPhase_of_same same]

theorem arrive_of_rejected {t : Traffic} {now : Int} {error : CircuitOpenError}
    {b : CircuitBreaker} (rejected : t.breaker.beforeCall now = (.error error, b))
    (same : b.state = t.breaker.state) : t.arrive now = { t with breaker := b } := by
  unfold arrive
  rw [rejected]
  dsimp only
  rw [nextPhase_of_same same]

theorem steps_arrive (t : Traffic) (now : Int) : Steps t (.arrive now) (t.arrive now) := by
  by_cases free : t.breaker.config.enabled = false ∨ t.breaker.state = .closed
  · rw [arrive_of_admitted_same (beforeCall_of_free now free) rfl]
    exact .waved free
  · obtain ⟨isEnabled, notClosed⟩ := not_or.mp free
    have enabled : t.breaker.config.enabled = true := by simpa using isEnabled
    cases state : t.breaker.state with
    | closed => exact absurd state notClosed
    | opened =>
        by_cases recovered : t.breaker.config.recoveryTimeout ≤ now - t.breaker.openedAt
        · rw [arrive_of_admitted (beforeCall_of_recovered enabled state recovered)]
          have next : t.nextPhase { t.breaker.toHalfOpen with halfOpenInFlight := 1 } =
              t.phase + 1 := if_pos ⟨state, rfl⟩
          rw [next]
          exact .began enabled state recovered
        · rw [arrive_of_rejected (beforeCall_of_early enabled state recovered) rfl]
          exact .rejected enabled (.inl ⟨state, Int.lt_of_not_ge recovered⟩)
    | halfOpen =>
        have before := beforeCall_of_halfOpen enabled now state
        by_cases full : t.breaker.config.halfOpenMaxCalls ≤ t.breaker.halfOpenInFlight
        · rw [arrive_of_rejected (before.trans (admitProbe_of_full full)) rfl]
          exact .rejected enabled (.inr ⟨state, full⟩)
        · have room := Nat.lt_of_not_le full
          rw [arrive_of_admitted_same (before.trans (admitProbe_of_room room)) rfl]
          exact .probed enabled state room

/-- Every event is one of the steps. -/
theorem steps (t : Traffic) (event : Event) : Steps t event (t.step event) := by
  cases event with
  | arrive now => exact steps_arrive t now
  | finish id report now =>
      change Steps t _ (t.finish id report now)
      unfold finish
      split
      · rename_i known
        obtain ⟨ticket, member, isTicket⟩ := List.any_eq_true.mp known
        rw [decide_eq_true_eq] at isTicket
        subst isTicket
        exact .ended member
      · rename_i unknown
        refine .ignored fun ticket member same => unknown ?_
        exact List.any_eq_true.mpr ⟨ticket, member, by simp [same]⟩

/-! ## What holds of all traffic -/

structure Tidy (t : Traffic) : Prop where
  fresh : ∀ ticket ∈ t.outstanding, ticket.id < t.nextId
  distinct : (t.outstanding.map Ticket.id).Nodup
  earlier : ∀ ticket ∈ t.outstanding, ticket.phase ≤ t.phase
  off : t.breaker.config.enabled = false →
    t.breaker.state = .closed ∧ t.breaker.failureCount = 0
  limit : t.breaker.state = .halfOpen →
    t.breaker.halfOpenInFlight ≤ t.breaker.config.halfOpenMaxCalls

theorem tidy_init (name : String) (config : CircuitBreakerConfig) : Tidy (.init name config) where
  fresh := fun _ member => absurd member List.not_mem_nil
  distinct := List.nodup_nil
  earlier := fun _ member => absurd member List.not_mem_nil
  off := fun _ => ⟨rfl, rfl⟩
  limit := fun halfOpen => by cases halfOpen

namespace Tidy

variable {t : Traffic}

theorem enabled_of_halfOpen (tidy : Tidy t) (halfOpen : t.breaker.state = .halfOpen) :
    t.breaker.config.enabled = true := by
  by_contra disabled
  have closed := (tidy.off (by simpa using disabled)).1
  rw [halfOpen] at closed
  cases closed

/-- A breaker that lets every call through is in no half-open phase. -/
theorem not_halfOpen_of_free (tidy : Tidy t)
    (free : t.breaker.config.enabled = false ∨ t.breaker.state = .closed) :
    t.breaker.state ≠ .halfOpen := by
  intro halfOpen
  rcases free with disabled | closed
  · have enabled := tidy.enabled_of_halfOpen halfOpen
    rw [disabled] at enabled
    cases enabled
  · rw [closed] at halfOpen
    cases halfOpen

theorem enabled_of_opened (tidy : Tidy t) (opened : t.breaker.state = .opened) :
    t.breaker.config.enabled = true := by
  by_contra disabled
  have closed := (tidy.off (by simpa using disabled)).1
  rw [opened] at closed
  cases closed

/-- Admission keeps the traffic tidy when the breaker and the phase it leaves are in order. -/
theorem letThrough (tidy : Tidy t) {breaker : CircuitBreaker} {phase : Nat} (later : t.phase ≤ phase)
    (off : breaker.config.enabled = false → breaker.state = .closed ∧ breaker.failureCount = 0)
    (limit : breaker.state = .halfOpen →
      breaker.halfOpenInFlight ≤ breaker.config.halfOpenMaxCalls) :
    Tidy (t.letThrough breaker phase) where
  fresh := by
    intro ticket member
    rcases List.mem_append.mp member with old | new
    · exact Nat.lt_succ_of_lt (tidy.fresh ticket old)
    · rw [List.mem_singleton.mp new]
      exact Nat.lt_succ_self _
  distinct := by
    change ((t.outstanding ++ [_]).map Ticket.id).Nodup
    rw [List.map_append, List.nodup_append]
    refine ⟨tidy.distinct, List.nodup_singleton _, ?_⟩
    intro id member other isNew same
    obtain ⟨ticket, old, rfl⟩ := List.mem_map.mp member
    have below := tidy.fresh ticket old
    rw [same, List.mem_singleton.mp isNew] at below
    exact Nat.lt_irrefl _ below
  earlier := by
    intro ticket member
    rcases List.mem_append.mp member with old | new
    · exact Nat.le_trans (tidy.earlier ticket old) later
    · rw [List.mem_singleton.mp new]
      exact Nat.le_refl _
  off := off
  limit := limit

theorem without (tidy : Tidy t) {breaker : CircuitBreaker} (id : Nat)
    (off : breaker.config.enabled = false → breaker.state = .closed ∧ breaker.failureCount = 0)
    (limit : breaker.state = .halfOpen →
      breaker.halfOpenInFlight ≤ breaker.config.halfOpenMaxCalls) :
    Tidy (t.without breaker id) where
  fresh := fun ticket member => tidy.fresh ticket (List.mem_of_mem_filter member)
  distinct := (List.filter_sublist.map Ticket.id).nodup tidy.distinct
  earlier := fun ticket member => tidy.earlier ticket (List.mem_of_mem_filter member)
  off := off
  limit := limit

theorem of_steps {event : Event} {next : Traffic} (tidy : Tidy t) (steps : Steps t event next) :
    Tidy next := by
  cases steps with
  | waved free => exact tidy.letThrough (Nat.le_refl _) tidy.off tidy.limit
  | probed enabled halfOpen room =>
      refine tidy.letThrough (Nat.le_refl _) (fun disabled => ?_) fun _ => room
      exact absurd (enabled.symm.trans disabled) (by simp)
  | began enabled opened recovered =>
      refine tidy.letThrough (Nat.le_succ _) (fun disabled => ?_) fun _ => ?_
      · exact absurd (enabled.symm.trans disabled) (by simp)
      · exact t.breaker.config.halfOpenMaxCalls_pos
  | rejected enabled shut => exact ⟨tidy.fresh, tidy.distinct, tidy.earlier, tidy.off, tidy.limit⟩
  | @ended ticket report now member =>
      refine tidy.without ticket.id ?_ ?_
      · intro disabled
        rw [report_config] at disabled
        rw [(report_of_disabled now disabled report).1, (report_of_disabled now disabled report).2]
        exact tidy.off disabled
      · intro halfOpen
        rw [report_config]
        by_cases enabled : t.breaker.config.enabled = true
        · obtain ⟨before, rfl | rfl⟩ := halfOpen_of_report enabled halfOpen
          · exact Nat.le_trans (Nat.sub_le _ _) (tidy.limit before)
          · exact tidy.limit before
        · have disabled : t.breaker.config.enabled = false := by simpa using enabled
          rw [(report_of_disabled now disabled report).1, (tidy.off disabled).1] at halfOpen
          cases halfOpen
  | ignored unknown => exact tidy

theorem step (tidy : Tidy t) (event : Event) : Tidy (t.step event) :=
  tidy.of_steps (steps t event)

end Tidy

/-! ## Counting the probes -/

section Probes

variable {t : Traffic} {b : CircuitBreaker}

theorem probes_letThrough_same : (t.letThrough b t.phase).probes.length = t.probes.length + 1 := by
  unfold probes letThrough
  rw [List.filter_append, List.length_append]
  simp

/-- A new phase has the call that began it for its only probe. -/
theorem probes_letThrough_next (tidy : Tidy t) : (t.letThrough b (t.phase + 1)).probes.length = 1 := by
  have none : t.outstanding.filter (fun ticket => ticket.phase = t.phase + 1) = [] := by
    refine List.filter_eq_nil_iff.mpr fun ticket member => ?_
    have earlier := tidy.earlier ticket member
    rw [decide_eq_true_eq]
    omega
  unfold probes letThrough
  rw [List.filter_append, none]
  simp

variable {ticket : Ticket}

/-- The end of a call of an earlier phase leaves the probes as they are. -/
theorem probes_without_stale (tidy : Tidy t) (member : ticket ∈ t.outstanding)
    (stale : ticket.phase ≠ t.phase) : (t.without b ticket.id).probes = t.probes := by
  unfold probes without
  dsimp only
  rw [List.filter_filter]
  refine List.filter_congr fun other isOther => ?_
  by_cases same : other.id = ticket.id
  · have equal : other = ticket :=
      List.inj_on_of_nodup_map tidy.distinct isOther member same
    rw [equal]
    simp [stale]
  · simp [same]

theorem probes_without_own (tidy : Tidy t) (member : ticket ∈ t.outstanding)
    (own : ticket.phase = t.phase) :
    (t.without b ticket.id).probes.length + 1 = t.probes.length := by
  have isProbe : ticket ∈ t.probes := List.mem_filter.mpr ⟨member, by simpa using own⟩
  have nodup : t.probes.Nodup := (tidy.distinct.of_map _).filter _
  have erased : (t.without b ticket.id).probes = t.probes.erase ticket := by
    rw [nodup.erase_eq_filter]
    unfold probes without
    dsimp only
    rw [List.filter_filter, List.filter_filter]
    refine List.filter_congr fun other isOther => ?_
    have iff : other.id = ticket.id ↔ other = ticket :=
      ⟨fun same => List.inj_on_of_nodup_map tidy.distinct isOther member same,
        fun equal => congrArg _ equal⟩
    by_cases same : other = ticket
    · simp [same]
    · simp [same, mt iff.mp same]
  have positive := List.length_pos_of_mem isProbe
  rw [erased, List.length_erase_of_mem isProbe]
  omega

end Probes

end Traffic

end YouMi.Core
