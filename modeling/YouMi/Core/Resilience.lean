import Mathlib.Data.List.Nodup
import YouMi.Library.Runs

/-!
# The circuit breaker

`CircuitBreaker` counts failures and lets calls through or not.  Its methods run
without interruption, but calls take time: one that was admitted in one state may
end in another.  `Traffic` is a breaker together with the admitted calls that have
not ended, each with the half-open phase in which it came.
-/

namespace YouMi.Core

open YouMi.Library

inductive CircuitState where
  | closed
  | opened
  | halfOpen
  deriving DecidableEq, Repr

/-- `CircuitBreakerConfig`; times are readings of the monotonic clock. -/
structure CircuitBreakerConfig where
  enabled : Bool
  failureThreshold : Nat
  recoveryTimeout : Int
  halfOpenMaxCalls : Nat
  failureThreshold_pos : 1 ≤ failureThreshold
  recoveryTimeout_pos : 0 < recoveryTimeout
  halfOpenMaxCalls_pos : 1 ≤ halfOpenMaxCalls

structure CircuitOpenError where
  name : String
  retryAfter : Int
  deriving DecidableEq, Repr

structure CircuitBreaker where
  name : String
  config : CircuitBreakerConfig
  state : CircuitState
  failureCount : Nat
  successCount : Nat
  openedAt : Int
  halfOpenInFlight : Nat
  totalSuccess : Nat
  totalFailure : Nat
  rejected : Nat

namespace CircuitBreaker

def init (name : String) (config : CircuitBreakerConfig) : CircuitBreaker :=
  ⟨name, config, .closed, 0, 0, 0, 0, 0, 0, 0⟩

/-- The end of `before_call`: a half-open breaker admits a limited number of probes. -/
def admitProbe (b : CircuitBreaker) : Except CircuitOpenError Unit × CircuitBreaker :=
  if b.config.halfOpenMaxCalls ≤ b.halfOpenInFlight then
    (.error ⟨b.name, 0⟩, { b with rejected := b.rejected + 1 })
  else (.ok (), { b with halfOpenInFlight := b.halfOpenInFlight + 1 })

/-- The breaker as it begins a half-open phase. -/
def toHalfOpen (b : CircuitBreaker) : CircuitBreaker :=
  { b with state := .halfOpen, halfOpenInFlight := 0, successCount := 0 }

def beforeCall (now : Int) (b : CircuitBreaker) : Except CircuitOpenError Unit × CircuitBreaker :=
  if b.config.enabled = false then (.ok (), b)
  else
    match b.state with
    | .closed => (.ok (), b)
    | .opened =>
        if b.config.recoveryTimeout ≤ now - b.openedAt then b.toHalfOpen.admitProbe
        else
          (.error ⟨b.name, b.config.recoveryTimeout - (now - b.openedAt)⟩,
            { b with rejected := b.rejected + 1 })
    | .halfOpen => b.admitProbe

def recordSuccess (b : CircuitBreaker) : CircuitBreaker :=
  let b := { b with totalSuccess := b.totalSuccess + 1 }
  if b.config.enabled = false then b
  else if b.state = .halfOpen then
    { b with
      halfOpenInFlight := b.halfOpenInFlight - 1
      successCount := b.successCount + 1
      state := .closed
      failureCount := 0 }
  else { b with failureCount := 0 }

def trip (now : Int) (b : CircuitBreaker) : CircuitBreaker :=
  { b with state := .opened, openedAt := now }

def recordFailure (now : Int) (b : CircuitBreaker) : CircuitBreaker :=
  let b := { b with totalFailure := b.totalFailure + 1 }
  if b.config.enabled = false then b
  else if b.state = .halfOpen then
    trip now { b with halfOpenInFlight := b.halfOpenInFlight - 1 }
  else
    let b := { b with failureCount := b.failureCount + 1 }
    if b.config.failureThreshold ≤ b.failureCount then trip now b else b

/-- What `call` does when the guarded code raises a `CircuitOpenError` of its own. -/
def releaseNested (b : CircuitBreaker) : CircuitBreaker :=
  { b with halfOpenInFlight := b.halfOpenInFlight - 1 }

end CircuitBreaker

/-! ## How a guarded call ends -/

/-- What the breaker is told at the end of a call. -/
inductive Report where
  | success
  | failure
  | nested
  /-- Nothing: no branch of the guarding code is taken. -/
  | unreported
  deriving DecidableEq, Repr

def CircuitBreaker.report (now : Int) : Report → CircuitBreaker → CircuitBreaker
  | .success => recordSuccess
  | .failure => recordFailure now
  | .nested => releaseNested
  | .unreported => id

/-- How the guarded code ends. -/
inductive Exit where
  /-- It returns; a tool may return that it failed. -/
  | returned (ok : Bool)
  | circuitOpenError
  | timeout
  /-- Another `Exception`, which the LLM client may find worth a retry. -/
  | exception (retryable : Bool)
  /-- `CancelledError`, which is no `Exception`. -/
  | cancelled
  /-- `GeneratorExit`, which is no `Exception`. -/
  | closed
  deriving DecidableEq, Repr

/-- The code that guards calls with a breaker. -/
inductive Site where
  /-- `CircuitBreaker.call` -/
  | call
  /-- `_do_execute_tool` -/
  | tool
  /-- `LLMClient.chat_stream`, after its retries -/
  | stream
  deriving DecidableEq, Repr

def Site.report : Site → Exit → Report
  | .call, .returned _ => .success
  | .call, .circuitOpenError => .nested
  | .call, .timeout | .call, .exception _ => .failure
  | .tool, .returned ok => if ok then .success else .failure
  | .tool, .circuitOpenError | .tool, .timeout | .tool, .exception _ => .failure
  | .stream, .returned _ => .success
  -- Only HTTP and transport errors are worth a retry; any other counts as an answer.
  | .stream, .circuitOpenError | .stream, .timeout => .success
  | .stream, .exception retryable => if retryable then .failure else .success
  | _, .cancelled | _, .closed => .unreported

/-- Every way out but cancellation and closing is reported, at every site. -/
theorem Site.report_eq_unreported_iff (site : Site) (exit : Exit) :
    site.report exit = .unreported ↔ exit = .cancelled ∨ exit = .closed := by
  cases site <;> rcases exit with _ | _ | _ | _ | _ | _ <;> simp [Site.report] <;> split <;> simp

/-! ## Interleavings -/

/-- An admitted call that has not ended. -/
structure Ticket where
  id : Nat
  /-- The number of half-open phases that had begun when the call was admitted. -/
  phase : Nat
  deriving DecidableEq, Repr

structure Traffic where
  breaker : CircuitBreaker
  phase : Nat
  nextId : Nat
  outstanding : List Ticket

inductive Event where
  | arrive (now : Int)
  | finish (id : Nat) (report : Report) (now : Int)
  deriving DecidableEq, Repr

namespace Traffic

def init (name : String) (config : CircuitBreakerConfig) : Traffic :=
  ⟨.init name config, 0, 0, []⟩

/-- The half-open phase after `before_call` has left the breaker in a state. -/
def nextPhase (t : Traffic) (after : CircuitBreaker) : Nat :=
  if t.breaker.state = .opened ∧ after.state = .halfOpen then t.phase + 1 else t.phase

def arrive (now : Int) (t : Traffic) : Traffic :=
  match t.breaker.beforeCall now with
  | (.error _, b) => { t with breaker := b, phase := t.nextPhase b }
  | (.ok (), b) =>
      { breaker := b
        phase := t.nextPhase b
        nextId := t.nextId + 1
        outstanding := t.outstanding ++ [⟨t.nextId, t.nextPhase b⟩] }

def finish (id : Nat) (report : Report) (now : Int) (t : Traffic) : Traffic :=
  if t.outstanding.any fun ticket => ticket.id = id then
    { t with
      breaker := t.breaker.report now report
      outstanding := t.outstanding.filter fun ticket => ticket.id ≠ id }
  else t

def step (t : Traffic) : Event → Traffic
  | .arrive now => t.arrive now
  | .finish id report now => t.finish id report now

/-- The calls admitted since the last half-open phase began. -/
def probes (t : Traffic) : List Ticket :=
  t.outstanding.filter fun ticket => ticket.phase = t.phase

end Traffic

end YouMi.Core
