import YouMi.Python.Equality

/-!
# Tasks of the gateway

A task is one mutable object, which the registry, the queue and a worker refer to at
the same time.  A status only has `COMPLETED`, `FAILED` and `CANCELLED` as its ends.
-/

namespace YouMi.Gateway

open YouMi.Python

inductive TaskStatus where
  | queued
  | running
  | completed
  | failed
  | cancelled
  deriving DecidableEq, Repr

def TaskStatus.finished : TaskStatus → Bool
  | completed | failed | cancelled => true
  | queued | running => false

structure TaskRecord where
  taskId : String := ""
  task : String := ""
  tenant : String := "default"
  metadata : Dict := []
  status : TaskStatus := .queued
  result : String := ""
  error : String := ""
  iterations : Int := 0
  toolCalls : List String := []
  workerId : String := ""
  createdAt : Rat := 0
  startedAt : Option Rat := none
  finishedAt : Option Rat := none

/-- A record as an object: its number among those created. -/
abbrev Ref := Nat

structure TaskOutcome where
  output : String := ""
  error : String := ""
  iterations : Int := 0
  toolCalls : List String := []

def TaskOutcome.success (outcome : TaskOutcome) : Bool := outcome.error = ""

/-- What an executor does with a task: it returns an outcome, or throws an exception of a
named type, or a `CancelledError`, which is none. -/
inductive Execution where
  | returned (outcome : TaskOutcome)
  | raised (typeName message : String)
  | cancelled

/-- The outcome that a worker writes down; after a `CancelledError` it writes none. -/
def Execution.outcome : Execution → Option TaskOutcome
  | returned outcome => some outcome
  | raised typeName message => some { error := typeName ++ ": " ++ message }
  | cancelled => none

/-- The executor returned, and without an error. -/
def Execution.Succeeds : Execution → Prop
  | returned outcome => outcome.error = ""
  | raised _ _ | cancelled => False

theorem Execution.success_iff {execution : Execution} {outcome : TaskOutcome}
    (given : execution.outcome = some outcome) :
    outcome.success = true ↔ execution.Succeeds := by
  cases execution with
  | returned returned =>
      cases given
      exact decide_eq_true_iff
  | raised typeName message =>
      cases given
      have worded : typeName ++ ": " ++ message ≠ "" := by
        intro empty
        have letters := congrArg String.toList empty
        simp at letters
      exact iff_of_false (fun empty => worded (of_decide_eq_true empty)) id
  | cancelled => cases given

end YouMi.Gateway
