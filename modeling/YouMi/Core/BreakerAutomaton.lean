import YouMi.Core.BreakerSteps

/-!
# Calls that come one after another

`call` guards a call from its beginning to its end.  When each call ends before the next
begins, the breaker follows the automaton of its documentation: its count is that of
the failures since the last success, and the time it keeps is that of its last trip.
-/

namespace YouMi.Core

open YouMi.Library

/-- A call given to `CircuitBreaker.call`, which returns or raises an `Exception`. -/
structure GuardedCall where
  start : Int
  finish : Int
  exit : Exit
  ends : exit ≠ .cancelled ∧ exit ≠ .closed

def GuardedCall.report (c : GuardedCall) : Report := Site.call.report c.exit

/-- `CircuitBreaker.call`: the error of a rejection, or the way out of the guarded code. -/
def CircuitBreaker.call (b : CircuitBreaker) (c : GuardedCall) :
    Except CircuitOpenError Exit × CircuitBreaker :=
  match b.beforeCall c.start with
  | (.error error, b) => (.error error, b)
  | (.ok (), b) => (.ok c.exit, b.report c.finish c.report)

theorem GuardedCall.report_cases (c : GuardedCall) :
    c.report = .success ∨ c.report = .failure ∨ c.report = .nested := by
  have told : c.report ≠ .unreported := fun silent =>
    ((Site.report_eq_unreported_iff .call c.exit).mp silent).elim c.ends.1 c.ends.2
  cases report : c.report with
  | success => exact .inl rfl
  | failure => exact .inr (.inl rfl)
  | nested => exact .inr (.inr rfl)
  | unreported => exact absurd report told

/-! ## The documented automaton -/

/-- The failures without a success in between, of a history that has its last call first. -/
def failuresInARow : List Report → Nat
  | [] => 0
  | .success :: _ => 0
  | .failure :: earlier => failuresInARow earlier + 1
  | .nested :: earlier | .unreported :: earlier => failuresInARow earlier

inductive Documented where
  /-- `CLOSED`, with how the calls since it closed have ended. -/
  | closed (ended : List Report)
  /-- `OPEN`, with the time of the trip. -/
  | opened (tripped : Int)
  | halfOpen
  deriving DecidableEq, Repr

namespace Documented

def state : Documented → CircuitState
  | .closed _ => .closed
  | .opened _ => .opened
  | .halfOpen => .halfOpen

/-- Calls pass, unless the breaker is open and the timeout is not over. -/
def Admits (config : CircuitBreakerConfig) (start : Int) : Documented → Prop
  | .closed _ => True
  | .opened tripped => config.recoveryTimeout ≤ start - tripped
  | .halfOpen => True

instance (config : CircuitBreakerConfig) (start : Int) :
    ∀ a : Documented, Decidable (a.Admits config start)
  | .closed _ => .isTrue trivial
  | .opened _ => inferInstanceAs (Decidable (_ ≤ _))
  | .halfOpen => .isTrue trivial

/-- A trial closes the breaker, opens it anew, or says nothing about it. -/
def afterTrial (c : GuardedCall) : Documented :=
  match c.report with
  | .success => .closed []
  | .failure => .opened c.finish
  | .nested | .unreported => .halfOpen

/-- After a call that was admitted. -/
def afterCall (config : CircuitBreakerConfig) (c : GuardedCall) : Documented → Documented
  | .closed ended =>
      if failuresInARow (c.report :: ended) = config.failureThreshold then .opened c.finish
      else .closed (c.report :: ended)
  | .opened _ | .halfOpen => afterTrial c

def next (config : CircuitBreakerConfig) (a : Documented) (c : GuardedCall) : Documented :=
  if a.Admits config c.start then a.afterCall config c else a

variable {config : CircuitBreakerConfig} {a : Documented} {c : GuardedCall}

theorem next_of_admits (admits : a.Admits config c.start) :
    a.next config c = a.afterCall config c := if_pos admits

theorem next_of_rejects (rejects : ¬ a.Admits config c.start) : a.next config c = a :=
  if_neg rejects

end Documented

namespace CircuitBreaker

/-- The counters and the timestamp say what the automaton remembers. -/
def Represents (b : CircuitBreaker) : Documented → Prop
  | .closed ended =>
      b.state = .closed ∧ b.failureCount = failuresInARow ended ∧
        b.failureCount < b.config.failureThreshold
  | .opened tripped => b.state = .opened ∧ b.openedAt = tripped
  | .halfOpen => b.state = .halfOpen ∧ b.halfOpenInFlight = 0

/-- Of each call the breaker admits what the automaton admits, and they agree after it. -/
def Follows (b : CircuitBreaker) (a : Documented) : List GuardedCall → Prop
  | [] => True
  | c :: later =>
      ((b.call c).1.isOk = true ↔ a.Admits b.config c.start) ∧
        (b.call c).2.Represents (a.next b.config c) ∧
        Follows (b.call c).2 (a.next b.config c) later

/-- Every call is admitted and leaves the breaker closed with nothing counted. -/
def LetsAllPass (b : CircuitBreaker) : List GuardedCall → Prop
  | [] => True
  | c :: later =>
      (b.call c).1.isOk = true ∧ (b.call c).2.state = .closed ∧ (b.call c).2.failureCount = 0 ∧
        LetsAllPass (b.call c).2 later

variable {b : CircuitBreaker}

theorem Represents.state {a : Documented} (represents : b.Represents a) : b.state = a.state := by
  cases a <;> exact represents.1

theorem call_of_admitted {b' : CircuitBreaker} {c : GuardedCall}
    (admitted : b.beforeCall c.start = (.ok (), b')) :
    b.call c = (.ok c.exit, b'.report c.finish c.report) := by
  unfold call
  rw [admitted]

theorem call_of_rejected {error : CircuitOpenError} {b' : CircuitBreaker} {c : GuardedCall}
    (rejected : b.beforeCall c.start = (.error error, b')) :
    b.call c = (.error error, b') := by
  unfold call
  rw [rejected]

theorem admitProbe_config : b.admitProbe.2.config = b.config := by
  unfold admitProbe
  split <;> rfl

theorem beforeCall_config (now : Int) : (b.beforeCall now).2.config = b.config := by
  unfold beforeCall
  split
  · rfl
  · cases b.state with
    | closed => rfl
    | opened =>
        dsimp only
        split
        · exact admitProbe_config
        · rfl
    | halfOpen => exact admitProbe_config

theorem call_config (c : GuardedCall) : (b.call c).2.config = b.config := by
  have kept := beforeCall_config (b := b) c.start
  unfold call
  split
  · rename_i error after before
    rw [before] at kept
    exact kept
  · rename_i after before
    rw [before] at kept
    exact (report_config c.report).trans kept

section Enabled

variable (enabled : b.config.enabled = true)

include enabled

/-- How a call that a closed breaker let through is counted. -/
theorem represents_of_closed {ended : List Report} (represents : b.Represents (.closed ended))
    (c : GuardedCall) :
    (b.report c.finish c.report).Represents ((Documented.closed ended).afterCall b.config c) := by
  obtain ⟨closed, counted, below⟩ := represents
  have notHalfOpen : b.state ≠ .halfOpen := by simp [closed]
  rw [Documented.afterCall]
  rcases c.report_cases with success | failure | nested
  · obtain ⟨state, count, _⟩ := recordSuccess_of_not_halfOpen enabled notHalfOpen
    have positive := b.config.failureThreshold_pos
    have never : failuresInARow (.success :: ended) ≠ b.config.failureThreshold :=
      Nat.ne_of_lt positive
    rw [success, if_neg never]
    refine ⟨state.trans closed, count, ?_⟩
    rw [report_config]
    exact lt_of_eq_of_lt count positive
  · have row : failuresInARow (.failure :: ended) = b.failureCount + 1 := by
      rw [counted]
      rfl
    rw [failure, row]
    rcases recordFailure_of_not_halfOpen enabled c.finish notHalfOpen with
      ⟨reached, opened, tripped⟩ | ⟨low, state, count, _⟩
    · rw [if_pos (Nat.le_antisymm below reached)]
      exact ⟨opened, tripped⟩
    · rw [if_neg (Nat.ne_of_lt low)]
      refine ⟨state.trans closed, count.trans row.symm, ?_⟩
      rw [report_config]
      exact lt_of_eq_of_lt count low
  · have row : failuresInARow (.nested :: ended) = b.failureCount := counted.symm
    rw [nested, row, if_neg (Nat.ne_of_lt below)]
    exact ⟨closed, row.symm, below⟩

/-- What a trial makes of a half-open breaker in which it is the only one. -/
theorem represents_of_trial (halfOpen : b.state = .halfOpen) (only : b.halfOpenInFlight = 1)
    (c : GuardedCall) :
    (b.report c.finish c.report).Represents (Documented.afterTrial c) := by
  unfold Documented.afterTrial
  rcases c.report_cases with success | failure | nested
  · rw [success]
    obtain ⟨closed, count⟩ := recordSuccess_of_halfOpen enabled halfOpen
    refine ⟨closed, count, ?_⟩
    rw [report_config]
    exact lt_of_eq_of_lt count b.config.failureThreshold_pos
  · rw [failure]
    refine ⟨recordFailure_of_halfOpen enabled c.finish halfOpen, ?_⟩
    change (recordFailure c.finish b).openedAt = c.finish
    unfold recordFailure
    dsimp only
    rw [if_neg (by simp [enabled]), if_pos halfOpen]
    rfl
  · rw [nested]
    refine ⟨halfOpen, ?_⟩
    change b.halfOpenInFlight - 1 = 0
    rw [only]

/-- One call keeps the breaker and the automaton in step. -/
theorem call_follows {a : Documented} (represents : b.Represents a) (c : GuardedCall) :
    ((b.call c).1.isOk = true ↔ a.Admits b.config c.start) ∧
      (b.call c).2.Represents (a.next b.config c) := by
  cases a with
  | closed ended =>
      have admits : (Documented.closed ended).Admits b.config c.start := trivial
      rw [call_of_admitted (beforeCall_of_free c.start (.inr represents.1)),
        Documented.next_of_admits admits]
      exact ⟨iff_of_true rfl admits, represents_of_closed enabled represents c⟩
  | opened tripped =>
      obtain ⟨opened, rfl⟩ := represents
      by_cases recovered : b.config.recoveryTimeout ≤ c.start - b.openedAt
      · have admits : (Documented.opened b.openedAt).Admits b.config c.start := recovered
        rw [call_of_admitted (beforeCall_of_recovered enabled opened recovered),
          Documented.next_of_admits admits]
        refine ⟨iff_of_true rfl admits, represents_of_trial ?_ rfl rfl c⟩
        exact enabled
      · have rejects : ¬ (Documented.opened b.openedAt).Admits b.config c.start := recovered
        rw [call_of_rejected (beforeCall_of_early enabled opened recovered),
          Documented.next_of_rejects rejects]
        exact ⟨iff_of_false Bool.false_ne_true rejects, opened, rfl⟩
  | halfOpen =>
      obtain ⟨halfOpen, none⟩ := represents
      have room : b.halfOpenInFlight < b.config.halfOpenMaxCalls := by
        rw [none]
        exact b.config.halfOpenMaxCalls_pos
      have admits : Documented.halfOpen.Admits b.config c.start := trivial
      rw [call_of_admitted ((beforeCall_of_halfOpen enabled c.start halfOpen).trans
        (admitProbe_of_room room)), Documented.next_of_admits admits]
      refine ⟨iff_of_true rfl admits, represents_of_trial ?_ ?_ ?_ c⟩
      · exact enabled
      · exact halfOpen
      · exact congrArg (· + 1) none

end Enabled

theorem Represents.follows {a : Documented} (enabled : b.config.enabled = true)
    (represents : b.Represents a) (calls : List GuardedCall) : b.Follows a calls := by
  induction calls generalizing b a with
  | nil => trivial
  | cons c later ih =>
      obtain ⟨admits, after⟩ := call_follows enabled represents c
      exact ⟨admits, after, ih ((congrArg _ (call_config c)).trans enabled) after⟩

theorem call_of_disabled (disabled : b.config.enabled = false) (c : GuardedCall) :
    (b.call c).1.isOk = true ∧ (b.call c).2.state = b.state ∧
      (b.call c).2.failureCount = b.failureCount := by
  rw [call_of_admitted (beforeCall_of_free c.start (.inl disabled))]
  exact ⟨rfl, report_of_disabled c.finish disabled c.report⟩

theorem letsAllPass_of_disabled (disabled : b.config.enabled = false) (closed : b.state = .closed)
    (count : b.failureCount = 0) (calls : List GuardedCall) : b.LetsAllPass calls := by
  induction calls generalizing b with
  | nil => trivial
  | cons c later ih =>
      obtain ⟨admits, state, same⟩ := call_of_disabled disabled c
      exact ⟨admits, state.trans closed, same.trans count,
        ih ((congrArg _ (call_config c)).trans disabled) (state.trans closed) (same.trans count)⟩

/--
A new breaker that is enabled follows the documented automaton through every sequential
run; one that is disabled lets every call pass.
-/
theorem sequential_calls (name : String) (config : CircuitBreakerConfig)
    (calls : List GuardedCall) :
    if config.enabled = true then (init name config).Follows (.closed []) calls
    else (init name config).LetsAllPass calls := by
  split
  · rename_i enabled
    have represents : (init name config).Represents (.closed []) :=
      ⟨rfl, rfl, config.failureThreshold_pos⟩
    exact represents.follows enabled calls
  · rename_i disabled
    have isOff : config.enabled = false := by simpa using disabled
    exact letsAllPass_of_disabled isOff rfl rfl calls

/-- A breaker that is switched off and would else open at the first failure. -/
def switchedOff : CircuitBreakerConfig :=
  ⟨false, 1, 1, 1, Nat.one_pos, Int.one_pos, Nat.one_pos⟩

/-- The failure that a disabled breaker does not count. -/
theorem not_follows_switchedOff :
    ¬ (init "tool" switchedOff).Follows (.closed [])
      [⟨0, 0, .timeout, by decide⟩] := by
  rintro ⟨_, represents, _⟩
  have opened := represents.state
  exact absurd opened (by decide)

end CircuitBreaker

/-! ## Among interleaved calls -/

namespace Traffic

/-- When no other call is in flight, an arrival and its end are a call. -/
theorem call_of_idle {t : Traffic} (idle : t.outstanding = []) (c : GuardedCall) :
    (run step t [.arrive c.start, .finish t.nextId c.report c.finish]).breaker =
        (t.breaker.call c).2 ∧
      (run step t [.arrive c.start, .finish t.nextId c.report c.finish]).outstanding = [] := by
  change (Traffic.finish t.nextId c.report c.finish (t.arrive c.start)).breaker = _ ∧
    (Traffic.finish t.nextId c.report c.finish (t.arrive c.start)).outstanding = []
  unfold arrive
  split
  · rename_i error after before
    rw [CircuitBreaker.call_of_rejected before]
    simp [Traffic.finish, idle]
  · rename_i after before
    rw [CircuitBreaker.call_of_admitted before]
    simp [Traffic.finish, idle]

end Traffic

end YouMi.Core
