import Mathlib.Algebra.Group.Nat.Defs
import Mathlib.Order.WithBot

/-!
# Retries with a backoff

`retry_async` awaits a function again and again, until it returns, raises what no retry
can mend, or has used up its retries.  Before each retry it tells a callback and waits.
A float is multiplied by an integer only after the integer has become a float itself,
and an integer from `2 ** 1024 - 2 ** 970` on is too large for that.
-/

namespace YouMi.Core

/-- Floats other than NaN, with their products by integers that are floats themselves. -/
class Floats (F : Type) extends LinearOrder F, Zero F, Top F where
  times : F → Nat → F

/-- The first integer that is rounded to no float. -/
def floatLimit : Nat := 2 ^ 1024 - 2 ^ 970

/-- `x * n`, or nothing when it raises an `OverflowError`. -/
def Floats.mulInt {F : Type} [Floats F] (x : F) (n : Nat) : Option F :=
  if floatLimit ≤ n then none else some (times x n)

inductive BackoffStrategy where
  | fixed
  | linear
  | exponential
  deriving DecidableEq, Repr

structure RetryPolicy (F : Type) [Floats F] where
  maxRetries : Nat
  baseDelay : F
  maxDelay : F
  backoff : BackoffStrategy
  retryableExceptions : List String
  baseDelay_nonneg : 0 ≤ baseDelay
  maxDelay_nonneg : 0 ≤ maxDelay

/-- An exception as the retries see it. -/
structure RaisedException where
  /-- The names of the classes of its `__mro__`. -/
  classNames : List String
  /-- Whether `except Exception` catches it. -/
  isException : Bool
  text : String
  deriving DecidableEq, Repr

inductive FnOutcome (R : Type) where
  | returned (value : R)
  | raised (exc : RaisedException)

/-- What can be seen of a run, in order. -/
inductive RetryEvent (F : Type) where
  | called (attempt : Nat)
  /-- `on_retry(attempt, exc, delay)` -/
  | notified (attempt : Nat) (exc : RaisedException) (delay : F)
  | slept (delay : F)

inductive RetryEnding (R : Type) where
  | returned (value : R)
  | raised (exc : RaisedException)
  /-- The delay is no float. -/
  | overflowError
  /-- The delay is infinite. -/
  | asleep

section Delay

variable {F : Type} [Floats F]

/-- `compute_backoff_delay` without jitter, or nothing when it raises an `OverflowError`. -/
def computeBackoffDelay (attempt : Nat) (policy : RetryPolicy F) : Option F :=
  let delay :=
    match policy.backoff with
    | .fixed => some policy.baseDelay
    | .linear => Floats.mulInt policy.baseDelay attempt
    | .exponential => Floats.mulInt policy.baseDelay (2 ^ (attempt - 1))
  delay.map fun delay => min delay policy.maxDelay

def isRetryableByPolicy (exc : RaisedException) (policy : RetryPolicy F) : Bool :=
  exc.classNames.any (· ∈ policy.retryableExceptions)

end Delay

/-- The arguments of `retry_async`, with what each call of `fn` will do. -/
structure RetryCall (F R : Type) [Floats F] where
  fn : Nat → FnOutcome R
  policy : RetryPolicy F
  isRetryable : Option (RaisedException → Bool)
  /-- Whether there is an `on_retry`. -/
  onRetry : Bool

namespace RetryCall

variable {F R : Type} [Floats F]

/-- Whether a handler of `retry_async` would try again after the exception. -/
def retryable (call : RetryCall F R) (exc : RaisedException) : Bool :=
  exc.isException &&
    match call.isRetryable with
    | some isRetryable => isRetryable exc
    | none => isRetryableByPolicy exc call.policy

/-- What happens between a failed attempt and the next one. -/
def beforeNext (call : RetryCall F R) (attempt : Nat) (exc : RaisedException) (delay : F) :
    List (RetryEvent F) :=
  (if call.onRetry then [.notified attempt exc delay] else []) ++
    if 0 < delay then [.slept delay] else []

/-- The loop of `retry_async` from an attempt on. -/
def loop (call : RetryCall F R) (attempt : Nat) : List (RetryEvent F) × RetryEnding R :=
  match call.fn attempt with
  | .returned value => ([.called attempt], .returned value)
  | .raised exc =>
      if _stop : call.retryable exc = false ∨ call.policy.maxRetries < attempt then
        ([.called attempt], .raised exc)
      else
        match computeBackoffDelay attempt call.policy with
        | none => ([.called attempt], .overflowError)
        | some delay =>
            if delay = ⊤ then (.called attempt :: call.beforeNext attempt exc delay, .asleep)
            else
              let rest := call.loop (attempt + 1)
              (.called attempt :: call.beforeNext attempt exc delay ++ rest.1, rest.2)
termination_by call.policy.maxRetries + 1 - attempt
decreasing_by omega

def retryAsync (call : RetryCall F R) : List (RetryEvent F) × RetryEnding R := call.loop 1

/-! ## What is promised -/

/-- The backoff formula of the policy, capped. -/
def cappedDelay (policy : RetryPolicy F) (attempt : Nat) : F :=
  let formula :=
    match policy.backoff with
    | .fixed => policy.baseDelay
    | .linear => Floats.times policy.baseDelay attempt
    | .exponential => Floats.times policy.baseDelay (2 ^ (attempt - 1))
  min formula policy.maxDelay

/-- No attempt comes after one that succeeds, is past mending or is the last allowed. -/
def Final (call : RetryCall F R) (attempt : Nat) : Prop :=
  match call.fn attempt with
  | .returned _ => True
  | .raised exc => call.retryable exc = false ∨ attempt = call.policy.maxRetries + 1

def ending (call : RetryCall F R) (attempt : Nat) : RetryEnding R :=
  match call.fn attempt with
  | .returned value => .returned value
  | .raised exc => .raised exc

/-- An attempt that is not the last one, with what is promised to follow it. -/
def retried (call : RetryCall F R) (attempt : Nat) : List (RetryEvent F) :=
  match call.fn attempt with
  | .returned _ => [.called attempt]
  | .raised exc =>
      .called attempt :: call.beforeNext attempt exc (cappedDelay call.policy attempt)

/-- The run that is promised from an attempt on: it ends with the first final attempt. -/
def PromisedFrom (call : RetryCall F R) (attempt : Nat)
    (result : List (RetryEvent F) × RetryEnding R) : Prop :=
  ∃ more, (∀ i < more, ¬ call.Final (attempt + i)) ∧ call.Final (attempt + more) ∧
    result = ((List.range' attempt more).flatMap call.retried ++ [.called (attempt + more)],
      call.ending (attempt + more))

/-- The promise of `retry_async`, whose callback hears of no delay beyond the cap. -/
def KeepsPromise (call : RetryCall F R) : Prop :=
  call.PromisedFrom 1 call.retryAsync ∧
    ∀ attempt exc delay, RetryEvent.notified attempt exc delay ∈ call.retryAsync.1 →
      delay ≤ call.policy.maxDelay

/-- The backoff of the attempt has a factor that is no float. -/
def Overflows (policy : RetryPolicy F) (attempt : Nat) : Prop :=
  match policy.backoff with
  | .fixed => False
  | .linear => floatLimit ≤ attempt
  | .exponential => 1025 ≤ attempt

/-- No delay overflows or is infinite, as long as attempts are to be repeated. -/
def WaitsFrom (call : RetryCall F R) (attempt : Nat) : Prop :=
  ∀ i, (∀ j ≤ i, ¬ call.Final (attempt + j)) →
    ¬ Overflows call.policy (attempt + i) ∧ cappedDelay call.policy (attempt + i) ≠ ⊤

/-! ## One attempt -/

theorem pow_sub_pow_le_pow_iff {low high : Nat} (gap : low + 1 < high) (k : Nat) :
    2 ^ high - 2 ^ low ≤ 2 ^ k ↔ high ≤ k := by
  constructor
  · intro large
    by_contra small
    obtain ⟨half, rfl⟩ : ∃ half, high = half + 1 := ⟨high - 1, by omega⟩
    have below : 2 ^ k ≤ 2 ^ half := Nat.pow_le_pow_right Nat.two_pos (by omega)
    have less : 2 ^ low < 2 ^ half := Nat.pow_lt_pow_right (Nat.lt_succ_self 1) (by omega)
    rw [Nat.pow_succ] at large
    omega
  · intro many
    have above : 2 ^ high ≤ 2 ^ k := Nat.pow_le_pow_right Nat.two_pos many
    exact Nat.le_trans (Nat.sub_le _ _) above

theorem floatLimit_le_pow_iff (attempt : Nat) :
    floatLimit ≤ 2 ^ (attempt - 1) ↔ 1025 ≤ attempt := by
  unfold floatLimit
  exact (pow_sub_pow_le_pow_iff (by decide : 970 + 1 < 1024) (attempt - 1)).trans (by omega)

/-- The delay overflows, or is what the formula gives. -/
theorem computeBackoffDelay_cases (policy : RetryPolicy F) (attempt : Nat) :
    Overflows policy attempt ∧ computeBackoffDelay attempt policy = none ∨
      ¬ Overflows policy attempt ∧
        computeBackoffDelay attempt policy = some (cappedDelay policy attempt) := by
  unfold Overflows computeBackoffDelay cappedDelay Floats.mulInt
  cases policy.backoff with
  | fixed => exact .inr ⟨not_false, rfl⟩
  | linear =>
      by_cases large : floatLimit ≤ attempt
      · exact .inl ⟨large, by simp [large]⟩
      · exact .inr ⟨large, by simp [large]⟩
  | exponential =>
      by_cases large : 1025 ≤ attempt
      · have exceeded := (floatLimit_le_pow_iff attempt).mpr large
        exact .inl ⟨large, by simp [exceeded]⟩
      · have under := mt (floatLimit_le_pow_iff attempt).mp large
        exact .inr ⟨large, by simp [under]⟩

variable {call : RetryCall F R} {attempt : Nat}

/-- The loop ends with a final attempt. -/
theorem loop_of_final (final : call.Final attempt) :
    call.loop attempt = ([.called attempt], call.ending attempt) := by
  unfold Final at final
  rw [loop]
  unfold ending
  cases outcome : call.fn attempt with
  | returned value => rfl
  | raised exc =>
      rw [outcome] at final
      have stop : call.retryable exc = false ∨ call.policy.maxRetries < attempt := by
        refine Or.imp_right (fun last => ?_) final
        rw [last]
        exact Nat.lt_succ_self _
      simp only [dif_pos stop]

/-- What the loop does after an attempt that is not final. -/
theorem loop_of_not_final (inRange : attempt ≤ call.policy.maxRetries + 1)
    (notFinal : ¬ call.Final attempt) :
    attempt ≤ call.policy.maxRetries ∧
      ((Overflows call.policy attempt ∧ (call.loop attempt).2 = .overflowError) ∨
        (¬ Overflows call.policy attempt ∧ cappedDelay call.policy attempt = ⊤ ∧
          (call.loop attempt).2 = .asleep) ∨
        (¬ Overflows call.policy attempt ∧ cappedDelay call.policy attempt ≠ ⊤ ∧
          call.loop attempt =
            (call.retried attempt ++ (call.loop (attempt + 1)).1,
              (call.loop (attempt + 1)).2))) := by
  unfold Final at notFinal
  cases outcome : call.fn attempt with
  | returned value =>
      rw [outcome] at notFinal
      exact absurd trivial notFinal
  | raised exc =>
      rw [outcome] at notFinal
      obtain ⟨retryable, notLast⟩ := not_or.mp notFinal
      have early : attempt ≤ call.policy.maxRetries := by omega
      have goesOn : ¬ (call.retryable exc = false ∨ call.policy.maxRetries < attempt) :=
        not_or.mpr ⟨retryable, Nat.not_lt_of_le early⟩
      refine ⟨early, ?_⟩
      rw [loop, retried]
      simp only [outcome, dif_neg goesOn]
      rcases computeBackoffDelay_cases call.policy attempt with ⟨exceeded, none⟩ | ⟨fits, delay⟩
      · rw [none]
        exact .inl ⟨exceeded, rfl⟩
      · rw [delay]
        dsimp only
        by_cases infinite : cappedDelay call.policy attempt = ⊤
        · rw [if_pos infinite]
          exact .inr (.inl ⟨fits, infinite, rfl⟩)
        · rw [if_neg infinite]
          exact .inr (.inr ⟨fits, infinite, rfl⟩)

/-! ## All attempts -/

theorem ending_cases (call : RetryCall F R) (attempt : Nat) :
    (∃ value, call.ending attempt = .returned value) ∨
      ∃ exc, call.ending attempt = .raised exc := by
  unfold ending
  cases call.fn attempt with
  | returned value => exact .inl ⟨value, rfl⟩
  | raised exc => exact .inr ⟨exc, rfl⟩

/-- A promised run ends as an attempt does. -/
theorem PromisedFrom.ending {result : List (RetryEvent F) × RetryEnding R}
    (promised : call.PromisedFrom attempt result) :
    result.2 ≠ .overflowError ∧ result.2 ≠ .asleep := by
  obtain ⟨more, _, _, rfl⟩ := promised
  rcases call.ending_cases (attempt + more) with ⟨value, is⟩ | ⟨exc, is⟩
  · rw [is]
    exact ⟨nofun, nofun⟩
  · rw [is]
    exact ⟨nofun, nofun⟩

/-- After an attempt that is not final, the promise is about the rest. -/
theorem promisedFrom_retried_iff (notFinal : ¬ call.Final attempt)
    (rest : List (RetryEvent F) × RetryEnding R) :
    call.PromisedFrom attempt (call.retried attempt ++ rest.1, rest.2) ↔
      call.PromisedFrom (attempt + 1) rest := by
  constructor
  · rintro ⟨more, before, final, result⟩
    cases more with
    | zero => exact absurd final notFinal
    | succ more =>
        refine ⟨more, fun i less => ?_, ?_, ?_⟩
        · rw [Nat.add_right_comm]
          exact before (i + 1) (Nat.succ_lt_succ less)
        · rw [Nat.add_right_comm]
          exact final
        · rw [List.range'_succ, List.flatMap_cons, List.append_assoc] at result
          obtain ⟨trace, last⟩ := Prod.mk.inj result
          rw [Nat.add_right_comm]
          exact Prod.ext (List.append_cancel_left trace) last
  · rintro ⟨more, before, final, rfl⟩
    refine ⟨more + 1, fun i less => ?_, ?_, ?_⟩
    · cases i with
      | zero => exact notFinal
      | succ i =>
          have other := before i (Nat.lt_of_succ_lt_succ less)
          rwa [Nat.add_right_comm] at other
    · rwa [Nat.add_right_comm] at final
    · rw [List.range'_succ, List.flatMap_cons, List.append_assoc, Nat.add_right_comm]
      rfl

theorem waitsFrom_of_final (final : call.Final attempt) : call.WaitsFrom attempt :=
  fun i before => absurd final (before 0 (Nat.zero_le i))

theorem waitsFrom_iff_of_not_final (notFinal : ¬ call.Final attempt) :
    call.WaitsFrom attempt ↔
      (¬ Overflows call.policy attempt ∧ cappedDelay call.policy attempt ≠ ⊤) ∧
        call.WaitsFrom (attempt + 1) := by
  constructor
  · intro waits
    refine ⟨waits 0 fun j first => ?_, fun i before => ?_⟩
    · rw [Nat.le_zero.mp first]
      exact notFinal
    · rw [Nat.add_right_comm]
      refine waits (i + 1) fun j upTo => ?_
      cases j with
      | zero => exact notFinal
      | succ j =>
          have other := before j (Nat.le_of_succ_le_succ upTo)
          rwa [Nat.add_right_comm] at other
  · rintro ⟨here, later⟩ i before
    cases i with
    | zero => exact here
    | succ i =>
        have there := later i fun j upTo => by
          rw [Nat.add_right_comm]
          exact before (j + 1) (Nat.succ_le_succ upTo)
        rwa [Nat.add_right_comm] at there

/-- By induction on the retries that are left. -/
theorem promisedFrom_loop_iff (inRange : attempt ≤ call.policy.maxRetries + 1) :
    call.PromisedFrom attempt (call.loop attempt) ↔ call.WaitsFrom attempt := by
  generalize isLeft : call.policy.maxRetries + 1 - attempt = left
  induction left generalizing attempt with
  | zero =>
      have last : attempt = call.policy.maxRetries + 1 := by omega
      have final : call.Final attempt := by
        unfold Final
        split
        · trivial
        · exact .inr last
      rw [loop_of_final final]
      exact iff_of_true ⟨0, nofun, final, rfl⟩ (waitsFrom_of_final final)
  | succ left ih =>
      by_cases final : call.Final attempt
      · rw [loop_of_final final]
        exact iff_of_true ⟨0, nofun, final, rfl⟩ (waitsFrom_of_final final)
      · obtain ⟨early, exceeded | infinite | ⟨fits, finite, next⟩⟩ :=
          loop_of_not_final inRange final
        · refine iff_of_false (fun promised => promised.ending.1 exceeded.2) fun waits => ?_
          exact ((waitsFrom_iff_of_not_final final).mp waits).1.1 exceeded.1
        · refine iff_of_false (fun promised => promised.ending.2 infinite.2.2) fun waits => ?_
          exact ((waitsFrom_iff_of_not_final final).mp waits).1.2 infinite.2.1
        · rw [next, promisedFrom_retried_iff final, ih (by omega) (by omega),
            waitsFrom_iff_of_not_final final]
          exact (and_iff_right ⟨fits, finite⟩).symm

/-- The callback hears of capped delays only. -/
theorem PromisedFrom.delay_le {result : List (RetryEvent F) × RetryEnding R}
    (promised : call.PromisedFrom attempt result) {i : Nat} {exc : RaisedException} {delay : F}
    (heard : RetryEvent.notified i exc delay ∈ result.1) : delay ≤ call.policy.maxDelay := by
  obtain ⟨more, _, _, rfl⟩ := promised
  rcases List.mem_append.mp heard with between | last
  · obtain ⟨j, _, inRetried⟩ := List.mem_flatMap.mp between
    have capped : cappedDelay call.policy j ≤ call.policy.maxDelay := min_le_right _ _
    unfold retried beforeNext at inRetried
    split at inRetried
    · simp at inRetried
    · split at inRetried <;> split at inRetried <;> simp at inRetried
      · exact inRetried.2.2 ▸ capped
      · exact inRetried.2.2 ▸ capped
  · simp at last

/--
`retry_async` does what it promises exactly if no backoff overflows and no delay is
infinite while attempts are to be repeated.
-/
theorem keepsPromise_iff (call : RetryCall F R) : call.KeepsPromise ↔ call.WaitsFrom 1 := by
  have promised : call.PromisedFrom 1 call.retryAsync ↔ call.WaitsFrom 1 :=
    promisedFrom_loop_iff (Nat.succ_le_succ (Nat.zero_le _))
  constructor
  · exact fun keeps => promised.mp keeps.1
  · intro waits
    have runs := promised.mpr waits
    exact ⟨runs, fun _ _ _ heard => runs.delay_le heard⟩

instance : Floats (WithTop Nat) where
  zero := WithTop.some 0
  times x n := x.map (· * n)

/-- A function that always times out, with a delay of one, then of two at the most. -/
def alwaysTimesOut (backoff : BackoffStrategy) (maxRetries : Nat) :
    RetryCall (WithTop Nat) Unit where
  fn := fun _ => .raised ⟨["TimeoutError", "Exception"], true, ""⟩
  policy := ⟨maxRetries, WithTop.some 1, WithTop.some 2, backoff, ["TimeoutError"],
    by decide, by decide⟩
  isRetryable := none
  onRetry := true

/-- The exponential backoff before the 1025th retry overflows. -/
theorem not_keepsPromise_manyRetries :
    ¬ (alwaysTimesOut .exponential 1025).KeepsPromise := by
  intro keeps
  have waits := (promisedFrom_loop_iff (by decide)).mp keeps.1
  refine (waits 1024 fun j upTo => ?_).1 (by decide : 1025 ≤ 1 + 1024)
  rintro (refused | last)
  · exact absurd refused (by decide)
  · change 1 + j = 1025 + 1 at last
    omega

end RetryCall

end YouMi.Core
