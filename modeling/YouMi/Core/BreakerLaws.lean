import YouMi.Core.BreakerSteps

/-!
# What a circuit breaker guarantees over a run of calls

The breaker does not know in which state the call that reports to it was admitted.
So its promises about probes, about recovery and about the way out of `HALF_OPEN`
are promises about orders of events, and each holds exactly as long as no call of
an earlier phase speaks for a probe.
-/

namespace YouMi.Core

open YouMi.Library

namespace Traffic

open CircuitBreaker

/-! ## The number of probes -/

/-- A half-open breaker has at most `half_open_max_calls` probes in flight. -/
def Bounded (t : Traffic) : Prop :=
  t.breaker.state = .halfOpen → t.probes.length ≤ t.breaker.config.halfOpenMaxCalls

/-- The probes stay bounded whatever calls arrive. -/
def StaysBounded (t : Traffic) : Prop :=
  ∀ times : List Int, Bounded (run step t (times.map Event.arrive))

/-- Every probe has its slot in the breaker's counter. -/
def Counted (t : Traffic) : Prop :=
  t.breaker.state = .halfOpen → t.probes.length ≤ t.breaker.halfOpenInFlight

/--
No call of an earlier phase ends in a nested `CircuitOpenError` while the breaker is
half open and the counter has a slot to free but none to spare.
-/
def SparesSlots (t : Traffic) : Event → Prop
  | .arrive _ => True
  | .finish id report _ =>
      report = .nested → t.breaker.state = .halfOpen →
        ∀ ticket ∈ t.outstanding, ticket.id = id → ticket.phase ≠ t.phase →
          t.breaker.halfOpenInFlight = 0 ∨ t.probes.length < t.breaker.halfOpenInFlight

theorem Tidy.same_of_id {t : Traffic} (tidy : Tidy t) {ticket other : Ticket}
    (member : ticket ∈ t.outstanding) (isOther : other ∈ t.outstanding)
    (same : other.id = ticket.id) : other = ticket :=
  List.inj_on_of_nodup_map tidy.distinct isOther member same

/-- After the report of a tidy breaker, `HALF_OPEN` is the state it was in. -/
theorem Tidy.halfOpen_of_report {t : Traffic} (tidy : Tidy t) {report : Report} {now : Int}
    (halfOpen : (t.breaker.report now report).state = .halfOpen) :
    t.breaker.state = .halfOpen ∧ (report = .nested ∨ report = .unreported) := by
  cases enabled : t.breaker.config.enabled with
  | true => exact CircuitBreaker.halfOpen_of_report enabled halfOpen
  | false =>
      rw [(report_of_disabled now enabled report).1, (tidy.off enabled).1] at halfOpen
      cases halfOpen

theorem probes_without_le {t : Traffic} (b : CircuitBreaker) (id : Nat) :
    (t.without b id).probes.length ≤ t.probes.length :=
  (List.Sublist.filter _ List.filter_sublist).length_le

theorem counted_of_arrive {t next : Traffic} {now : Int} (tidy : Tidy t) (counted : Counted t)
    (steps : Steps t (.arrive now) next) : Counted next := by
  cases steps with
  | waved free => exact fun halfOpen => absurd halfOpen (tidy.not_halfOpen_of_free free)
  | probed enabled halfOpen room =>
      intro _
      rw [probes_letThrough_same]
      exact Nat.succ_le_succ (counted halfOpen)
  | began enabled opened recovered =>
      intro _
      rw [probes_letThrough_next tidy]
      exact Nat.le_refl 1
  | rejected enabled shut => exact counted

theorem counted_iff_of_finish {t next : Traffic} {id : Nat} {report : Report} {now : Int}
    (tidy : Tidy t) (counted : Counted t) (steps : Steps t (.finish id report now) next) :
    Counted next ↔ SparesSlots t (.finish id report now) := by
  cases steps with
  | @ended ticket _ _ member =>
      constructor
      · rintro after rfl halfOpen other isOther same stale
        have equal := tidy.same_of_id member isOther same
        subst equal
        have kept := after halfOpen
        rw [probes_without_stale tidy member stale] at kept
        change _ ≤ t.breaker.halfOpenInFlight - 1 at kept
        omega
      · intro spares halfOpen
        obtain ⟨before, rfl | rfl⟩ := tidy.halfOpen_of_report halfOpen
        · change _ ≤ t.breaker.halfOpenInFlight - 1
          have bound := counted before
          by_cases own : ticket.phase = t.phase
          · have fewer := probes_without_own (b := t.breaker.report now .nested) tidy member own
            omega
          · have spare := spares rfl before ticket member rfl own
            rw [probes_without_stale tidy member own]
            omega
        · exact Nat.le_trans (probes_without_le _ _) (counted before)
  | ignored unknown =>
      exact ⟨fun _ _ _ ticket member same => absurd same (unknown ticket member),
        fun _ => counted⟩

/-- Arriving calls fill the slots that the counter shows as free. -/
theorem fill {t : Traffic} (enabled : t.breaker.config.enabled = true)
    (halfOpen : t.breaker.state = .halfOpen) (free : Nat)
    (room : t.breaker.halfOpenInFlight + free ≤ t.breaker.config.halfOpenMaxCalls) :
    ∃ times : List Int, ∃ next, run step t (times.map Event.arrive) = next ∧
      next.breaker.state = .halfOpen ∧
      next.breaker.config.halfOpenMaxCalls = t.breaker.config.halfOpenMaxCalls ∧
      next.probes.length = t.probes.length + free := by
  induction free generalizing t with
  | zero => exact ⟨[], t, rfl, halfOpen, rfl, rfl⟩
  | succ free ih =>
      have admits := (beforeCall_of_halfOpen enabled 0 halfOpen).trans
        (admitProbe_of_room (by omega))
      have arrives : t.step (.arrive 0) = _ := arrive_of_admitted_same admits rfl
      have left : t.breaker.halfOpenInFlight + 1 + free ≤
          t.breaker.config.halfOpenMaxCalls := by omega
      obtain ⟨times, next, runs, state, config, probes⟩ :=
        ih (t := t.step (.arrive 0)) (by rw [arrives]; exact enabled)
          (by rw [arrives]; exact halfOpen) (by rw [arrives]; exact left)
      refine ⟨0 :: times, next, runs, state, ?_, ?_⟩
      · rw [config, arrives]
        rfl
      · rw [probes, arrives, probes_letThrough_same]
        omega

theorem staysBounded_iff_counted {t : Traffic} (tidy : Tidy t) :
    StaysBounded t ↔ Counted t := by
  constructor
  · intro stays halfOpen
    by_contra uncounted
    have limit := tidy.limit halfOpen
    obtain ⟨times, next, runs, state, config, probes⟩ :=
      fill (tidy.enabled_of_halfOpen halfOpen) halfOpen
        (t.breaker.config.halfOpenMaxCalls - t.breaker.halfOpenInFlight) (by omega)
    have bounded := stays times
    rw [runs] at bounded
    have bound := bounded state
    omega
  · intro counted times
    induction times generalizing t with
    | nil => exact fun halfOpen => Nat.le_trans (counted halfOpen) (tidy.limit halfOpen)
    | cons now rest ih =>
        exact ih (tidy.step (.arrive now)) (counted_of_arrive tidy counted (steps t _))

/--
The probes of a half-open phase stay within `half_open_max_calls` exactly as long as no
nested rejection of an earlier call frees the slot of a probe.
-/
theorem staysBounded_throughout_iff (name : String) (config : CircuitBreakerConfig)
    (events : List Event) :
    Throughout step StaysBounded (init name config) events ↔
      StepsMeet step SparesSlots (init name config) events := by
  refine throughout_iff_stepsMeet Tidy StaysBounded (fun t event tidy => tidy.step event) ?_
    (tidy_init name config) ?_ events
  · intro t event tidy stays
    rw [staysBounded_iff_counted (tidy.step event)]
    have counted := (staysBounded_iff_counted tidy).mp stays
    cases event with
    | arrive now => exact iff_of_true (counted_of_arrive tidy counted (steps t _)) trivial
    | finish id report now => exact counted_iff_of_finish tidy counted (steps t _)
  · exact (staysBounded_iff_counted (tidy_init name config)).mpr fun halfOpen => by cases halfOpen

/-- One failure opens the breaker, and one probe is allowed a second later. -/
def hairTrigger : CircuitBreakerConfig :=
  ⟨true, 1, 1, 1, Nat.le_refl 1, Int.one_pos, Nat.le_refl 1⟩

/-- A call that came before the breaker opened is rejected by a breaker of its own. -/
theorem not_bounded_nestedRejection :
    ¬ Throughout step Bounded (init "tool" hairTrigger)
      [.arrive 0, .arrive 0, .finish 0 .failure 0, .arrive 1, .finish 1 .nested 1, .arrive 1] := by
  intro always
  have bounded := always 6 (by rfl)
  exact absurd bounded (by decide)

/-! ## Recovery -/

/-- An event of a run in which every call is guarded at one of the sites. -/
inductive GuardedEvent where
  | arrive (now : Int)
  | leave (id : Nat) (site : Site) (exit : Exit) (now : Int)
  deriving DecidableEq, Repr

def GuardedEvent.event : GuardedEvent → Event
  | .arrive now => .arrive now
  | .leave id site exit now => .finish id (site.report exit) now

def guardedStep (t : Traffic) (e : GuardedEvent) : Traffic := t.step e.event

/-- With no call in flight, the breaker admits once the time since the last trip is over. -/
def Recovers (t : Traffic) : Prop :=
  t.outstanding = [] → ∀ now, t.breaker.config.recoveryTimeout ≤ now - t.breaker.openedAt →
    (t.breaker.beforeCall now).1 = .ok ()

/-- Some slot is free, or held by a probe in flight. -/
def Recoverable (t : Traffic) : Prop :=
  t.breaker.state = .halfOpen →
    t.breaker.halfOpenInFlight < t.breaker.config.halfOpenMaxCalls + t.probes.length

/-- No probe is cancelled or closed, but while another slot is free or held by another probe. -/
def ReturnsSlots (t : Traffic) : GuardedEvent → Prop
  | .arrive _ => True
  | .leave id _ exit _ =>
      exit = .cancelled ∨ exit = .closed → t.breaker.state = .halfOpen →
        ∀ ticket ∈ t.outstanding, ticket.id = id → ticket.phase = t.phase →
          t.breaker.halfOpenInFlight + 1 <
            t.breaker.config.halfOpenMaxCalls + t.probes.length

theorem recoverable_of_arrive {t next : Traffic} {now : Int} (tidy : Tidy t)
    (recoverable : Recoverable t) (steps : Steps t (.arrive now) next) : Recoverable next := by
  cases steps with
  | waved free => exact fun halfOpen => absurd halfOpen (tidy.not_halfOpen_of_free free)
  | probed enabled halfOpen room =>
      intro _
      rw [probes_letThrough_same]
      exact Nat.succ_lt_succ (recoverable halfOpen)
  | began enabled opened recovered =>
      intro _
      rw [probes_letThrough_next tidy]
      exact Nat.succ_lt_succ t.breaker.config.halfOpenMaxCalls_pos
  | rejected enabled shut => exact recoverable

theorem recoverable_of_leave {t next : Traffic} {id : Nat} {site : Site} {exit : Exit} {now : Int}
    (tidy : Tidy t) (recoverable : Recoverable t)
    (returns : ReturnsSlots t (.leave id site exit now))
    (steps : Steps t (.finish id (site.report exit) now) next) : Recoverable next := by
  generalize isReport : site.report exit = report at steps
  cases steps with
  | @ended ticket _ _ member =>
      intro halfOpen
      change _ < (t.breaker.report now report).config.halfOpenMaxCalls + _
      rw [report_config]
      obtain ⟨before, kind⟩ := tidy.halfOpen_of_report halfOpen
      have slack := recoverable before
      have positive := t.breaker.config.halfOpenMaxCalls_pos
      by_cases own : ticket.phase = t.phase
      · have fewer := probes_without_own (b := t.breaker.report now report) tidy member own
        rcases kind with rfl | rfl
        · change t.breaker.halfOpenInFlight - 1 < _
          omega
        · have silent := (Site.report_eq_unreported_iff site exit).mp isReport
          have spare := returns silent before ticket member rfl own
          change t.breaker.halfOpenInFlight < _
          omega
      · rw [probes_without_stale tidy member own]
        rcases kind with rfl | rfl
        · change t.breaker.halfOpenInFlight - 1 < _
          omega
        · exact slack
  | ignored unknown => exact recoverable

theorem recovers_of_recoverable {t : Traffic} (recoverable : Recoverable t) : Recovers t := by
  intro idle now recovered
  by_cases free : t.breaker.config.enabled = false ∨ t.breaker.state = .closed
  · rw [beforeCall_of_free now free]
  · obtain ⟨isEnabled, notClosed⟩ := not_or.mp free
    have enabled : t.breaker.config.enabled = true := by simpa using isEnabled
    cases state : t.breaker.state with
    | closed => exact absurd state notClosed
    | opened => rw [beforeCall_of_recovered enabled state recovered]
    | halfOpen =>
        have room := recoverable state
        unfold probes at room
        rw [idle] at room
        rw [beforeCall_of_halfOpen enabled now state, admitProbe_of_room (by simpa using room)]

/-- Like `hairTrigger`, with two probes. -/
def twoProbes : CircuitBreakerConfig :=
  ⟨true, 1, 1, 2, Nat.le_refl 1, Int.one_pos, Nat.le_succ 1⟩

/-- A half-open breaker whose slots no call holds any more. -/
def Stuck (t : Traffic) : Prop :=
  t.breaker.config.enabled = true ∧ t.breaker.state = .halfOpen ∧
    t.breaker.config.halfOpenMaxCalls ≤ t.breaker.halfOpenInFlight ∧ t.outstanding = []

/-- Nothing that calls do frees a breaker whose slots are lost. -/
theorem Stuck.forever {t : Traffic} (stuck : Stuck t) (events : List Event) :
    Throughout step Stuck t events := by
  have free : StepsMeet step (fun _ _ => True) t events :=
    stepsMeet_of_forall step t fun _ _ => trivial
  refine throughout_of_stepsMeet Stuck ?_ stuck free
  rintro s event ⟨enabled, halfOpen, full, idle⟩ _
  cases event with
  | arrive now =>
      have rejects := (beforeCall_of_halfOpen enabled now halfOpen).trans
        (admitProbe_of_full full)
      have arrives : s.step (.arrive now) = _ := arrive_of_rejected rejects rfl
      rw [arrives]
      exact ⟨enabled, halfOpen, full, idle⟩
  | finish id report now =>
      have same : s.step (.finish id report now) = s := if_neg (by simp [idle])
      rw [same]
      exact ⟨enabled, halfOpen, full, idle⟩

/-- A closed breaker is below its threshold. -/
def BelowThreshold (t : Traffic) : Prop :=
  t.breaker.state = .closed → t.breaker.failureCount < t.breaker.config.failureThreshold

/-- Only the outcome of one of its own probes ends a half-open phase. -/
def EndedByProbe (t : Traffic) (event : Event) : Prop :=
  t.breaker.state = .halfOpen → (t.step event).breaker.state ≠ .halfOpen →
    ∃ ticket ∈ t.outstanding, ticket.phase = t.phase ∧
      ∃ report now, event = .finish ticket.id report now ∧
        (report = .success ∨ report = .failure)

/-- As long as the breaker is open, the time of its trip stands. -/
def TripStands (t : Traffic) (event : Event) : Prop :=
  t.breaker.state = .opened → (t.step event).breaker.state = .opened →
    (t.step event).breaker.openedAt = t.breaker.openedAt

/--
No call of an earlier phase reports its outcome to a half-open breaker, and no failure
reported to an open one comes at a later time and reaches the threshold.
-/
def NoLateOutcome (t : Traffic) : Event → Prop
  | .arrive _ => True
  | .finish id report now =>
      ∀ ticket ∈ t.outstanding, ticket.id = id →
        (t.breaker.state = .halfOpen → report = .success ∨ report = .failure →
          ticket.phase = t.phase) ∧
        (t.breaker.state = .opened → report = .failure → now ≠ t.breaker.openedAt →
          t.breaker.failureCount + 1 < t.breaker.config.failureThreshold)

theorem arrive_keeps {t next : Traffic} {now : Int}
    (steps : Steps t (.arrive now) next) :
    (BelowThreshold t → BelowThreshold next) ∧
      (t.breaker.state = .halfOpen → next.breaker.state = .halfOpen) ∧
      (t.breaker.state = .opened → next.breaker.state = .opened →
        next.breaker.openedAt = t.breaker.openedAt) := by
  cases steps with
  | waved free => exact ⟨id, id, fun _ _ => rfl⟩
  | probed enabled halfOpen room => exact ⟨id, id, fun _ _ => rfl⟩
  | began enabled opened recovered =>
      refine ⟨fun _ closed => ?_, fun _ => rfl, fun _ opened => ?_⟩
      · cases closed
      · cases opened
  | rejected enabled shut => exact ⟨id, id, fun _ _ => rfl⟩

theorem belowThreshold_report {b : CircuitBreaker} {report : Report} {now : Int}
    (below : b.state = .closed → b.failureCount < b.config.failureThreshold)
    (closed : (b.report now report).state = .closed) :
    (b.report now report).failureCount < b.config.failureThreshold := by
  cases enabled : b.config.enabled with
  | false =>
      obtain ⟨sameState, sameCount⟩ := report_of_disabled now enabled report
      rw [sameCount]
      exact below (sameState.symm.trans closed)
  | true =>
      cases report with
      | success =>
          have reset : b.recordSuccess.failureCount = 0 := by
            by_cases halfOpen : b.state = .halfOpen
            · exact (recordSuccess_of_halfOpen enabled halfOpen).2
            · exact (recordSuccess_of_not_halfOpen enabled halfOpen).2.1
          change b.recordSuccess.failureCount < _
          rw [reset]
          exact b.config.failureThreshold_pos
      | failure =>
          by_cases halfOpen : b.state = .halfOpen
          · have opened := recordFailure_of_halfOpen enabled now halfOpen
            exact absurd (opened.symm.trans closed) (by simp)
          · rcases recordFailure_of_not_halfOpen enabled now halfOpen with
              ⟨_, opened, _⟩ | ⟨low, _, count, _⟩
            · exact absurd (opened.symm.trans closed) (by simp)
            · change (b.recordFailure now).failureCount < _
              rw [count]
              exact low
      | nested => exact below closed
      | unreported => exact below closed

/-- A report to an open breaker moves its trip only if it is a failure at the threshold. -/
theorem openedAt_report {b : CircuitBreaker} {report : Report} (now : Int)
    (enabled : b.config.enabled = true) (opened : b.state = .opened) :
    (b.report now report).state = .opened ∧
      ((b.report now report).openedAt = b.openedAt ↔
        (report = .failure → now ≠ b.openedAt →
          b.failureCount + 1 < b.config.failureThreshold)) := by
  have notHalfOpen : b.state ≠ .halfOpen := by simp [opened]
  cases report with
  | success =>
      obtain ⟨state, _, time⟩ := recordSuccess_of_not_halfOpen enabled notHalfOpen
      exact ⟨state.trans opened, iff_of_true time fun failure => by cases failure⟩
  | failure =>
      rcases recordFailure_of_not_halfOpen enabled now notHalfOpen with
        ⟨reached, state, time⟩ | ⟨low, state, _, time⟩
      · refine ⟨state, ?_⟩
        change (b.recordFailure now).openedAt = _ ↔ _
        rw [time]
        constructor
        · exact fun same _ moved => absurd same moved
        · intro low
          by_contra moved
          exact absurd (low rfl moved) (Nat.not_lt_of_le reached)
      · exact ⟨state.trans opened, iff_of_true time fun _ _ => low⟩
  | nested => exact ⟨opened, iff_of_true rfl fun failure => by cases failure⟩
  | unreported => exact ⟨opened, iff_of_true rfl fun failure => by cases failure⟩

/-- A half-open phase ends with a reported outcome. -/
theorem state_report_of_halfOpen {b : CircuitBreaker} {report : Report} (now : Int)
    (enabled : b.config.enabled = true) (halfOpen : b.state = .halfOpen) :
    (b.report now report).state ≠ .halfOpen ↔ report = .success ∨ report = .failure := by
  refine ⟨fun left => ?_, report_leaves_halfOpen enabled halfOpen⟩
  cases report with
  | success => exact .inl rfl
  | failure => exact .inr rfl
  | nested => exact absurd halfOpen left
  | unreported => exact absurd halfOpen left

theorem finish_of_member {t : Traffic} {ticket : Ticket} (member : ticket ∈ t.outstanding)
    (report : Report) (now : Int) :
    t.step (.finish ticket.id report now) =
      t.without (t.breaker.report now report) ticket.id :=
  if_pos (List.any_eq_true.mpr ⟨ticket, member, by simp⟩)

theorem finish_of_unknown {t : Traffic} {id : Nat}
    (unknown : ∀ ticket ∈ t.outstanding, ticket.id ≠ id) (report : Report) (now : Int) :
    t.step (.finish id report now) = t := by
  refine if_neg fun known => ?_
  obtain ⟨ticket, member, same⟩ := List.any_eq_true.mp known
  exact unknown ticket member (of_decide_eq_true same)

/-- The end of a call obeys both laws exactly if it is no late outcome. -/
theorem finish_lawful_iff {t : Traffic} (tidy : Tidy t) {ticket : Ticket}
    (member : ticket ∈ t.outstanding) (report : Report) (now : Int) :
    EndedByProbe t (.finish ticket.id report now) ∧ TripStands t (.finish ticket.id report now) ↔
      NoLateOutcome t (.finish ticket.id report now) := by
  have only : ∀ other ∈ t.outstanding, other.id = ticket.id → other = ticket :=
    fun other isOther same => tidy.same_of_id member isOther same
  have ends := finish_of_member member report now
  have after : (t.step (.finish ticket.id report now)).breaker = t.breaker.report now report := by
    rw [ends]
    rfl
  unfold EndedByProbe TripStands NoLateOutcome
  rw [after]
  constructor
  · rintro ⟨byProbe, stands⟩ other isOther same
    have equal := only other isOther same
    subst equal
    constructor
    · intro halfOpen outcome
      have enabled := tidy.enabled_of_halfOpen halfOpen
      have left := (state_report_of_halfOpen now enabled halfOpen).mpr outcome
      obtain ⟨probe, isProbe, current, _, _, sameEvent, _⟩ := byProbe halfOpen left
      have equal := only probe isProbe (Event.finish.inj sameEvent).1.symm
      rw [← equal]
      exact current
    · intro opened
      have enabled := tidy.enabled_of_opened opened
      obtain ⟨stillOpen, iff⟩ := openedAt_report now enabled opened
      exact iff.mp (stands opened stillOpen)
  · intro law
    obtain ⟨own, low⟩ := law ticket member rfl
    constructor
    · intro halfOpen left
      have enabled := tidy.enabled_of_halfOpen halfOpen
      have outcome := (state_report_of_halfOpen now enabled halfOpen).mp left
      exact ⟨ticket, member, own halfOpen outcome, report, now, rfl, outcome⟩
    · intro opened _
      exact (openedAt_report now (tidy.enabled_of_opened opened) opened).2.mpr (low opened)

/--
Along a run a closed breaker is below its threshold, only its own probes end a half-open
phase and an open breaker keeps its trip, exactly if no late outcome is reported.
-/
theorem belowThreshold_throughout_and_lawful_iff (name : String) (config : CircuitBreakerConfig)
    (events : List Event) :
    Throughout step BelowThreshold (init name config) events ∧
        StepsMeet step (fun t event => EndedByProbe t event ∧ TripStands t event)
          (init name config) events ↔
      StepsMeet step NoLateOutcome (init name config) events := by
  refine throughout_and_stepsMeet_iff Tidy BelowThreshold
    (fun t event tidy => tidy.step event) ?_ (tidy_init name config)
    (fun _ => config.failureThreshold_pos) events
  intro t event tidy below
  cases event with
  | arrive now =>
      obtain ⟨keepsBelow, keepsHalfOpen, keepsTrip⟩ := arrive_keeps (steps t (.arrive now))
      refine iff_of_true ⟨keepsBelow below, ?_, keepsTrip⟩ trivial
      exact fun halfOpen left => absurd (keepsHalfOpen halfOpen) left
  | finish id report now =>
      by_cases known : ∃ ticket ∈ t.outstanding, ticket.id = id
      · obtain ⟨ticket, member, rfl⟩ := known
        rw [finish_lawful_iff tidy member report now]
        refine and_iff_right ?_
        rw [finish_of_member member]
        intro closed
        change _ < (t.breaker.report now report).config.failureThreshold
        rw [report_config]
        exact belowThreshold_report below closed
      · have unknown : ∀ ticket ∈ t.outstanding, ticket.id ≠ id :=
          fun ticket member same => known ⟨ticket, member, same⟩
        have same := finish_of_unknown unknown report now
        refine iff_of_true ⟨?_, ?_, ?_⟩ fun ticket member same => absurd same (unknown ticket member)
        · rw [same]
          exact below
        · intro halfOpen left
          rw [same] at left
          exact absurd halfOpen left
        · intro _ _
          rw [same]

/-- A success from before the breaker opened closes it although its probe is still out. -/
theorem not_endedByProbe_lateSuccess :
    ¬ (Throughout step BelowThreshold (init "tool" hairTrigger)
          [.arrive 0, .arrive 0, .finish 0 .failure 0, .arrive 1, .finish 1 .success 1] ∧
        StepsMeet step (fun t event => EndedByProbe t event ∧ TripStands t event)
          (init "tool" hairTrigger)
          [.arrive 0, .arrive 0, .finish 0 .failure 0, .arrive 1, .finish 1 .success 1]) := by
  rintro ⟨_, _, _, _, _, ⟨byProbe, _⟩, _⟩
  obtain ⟨ticket, member, current, _, _, sameEvent, _⟩ := byProbe rfl (by decide)
  have isStale := (Event.finish.inj sameEvent).1
  clear sameEvent
  revert ticket
  decide

end Traffic

end YouMi.Core
