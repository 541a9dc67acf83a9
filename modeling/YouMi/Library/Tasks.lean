import Mathlib.Data.List.Basic
import YouMi.Library.Runs

/-!
# Tasks that share a state

A task works on a shared state in segments, and between two segments of one task
any number of segments of others may come.  An invariant of the state is kept
through all interleavings when each segment keeps it on what its task knows, and
when no segment does to the state what would make another task's knowledge false:
a rule of rely and guarantee.  A task that is not interrupted does what its
segments do one after another.
-/

namespace YouMi.Library.Tasks

/-- The shared state, and the tasks that have not ended. -/
structure Pool (σ τ : Type*) where
  shared : σ
  tasks : List τ

inductive Turn (κ ε : Type*) where
  /-- A new task, which begins with the call. -/
  | spawn (call : κ)
  /-- The next segment of the task at the place, with what it meets outside of the state. -/
  | resume (place : Nat) (outside : ε)

variable {σ τ κ ε : Type*} (enter : κ → τ) (segment : σ → τ → ε → σ × Option τ)

/-- What is left of a task stays at its place; a task that has ended leaves it. -/
def putBack (tasks : List τ) (place : Nat) : Option τ → List τ
  | some rest => tasks.set place rest
  | none => tasks.eraseIdx place

def turn (pool : Pool σ τ) : Turn κ ε → Pool σ τ
  | .spawn call => ⟨pool.shared, pool.tasks ++ [enter call]⟩
  | .resume place outside =>
      match pool.tasks[place]? with
      | none => pool
      | some task =>
          let (shared, rest) := segment pool.shared task outside
          ⟨shared, putBack pool.tasks place rest⟩

/-! ## Rely and guarantee -/

/--
The calls in `Starts` may come in any state with the invariant, and `Meets` is said
of what segments meet outside.  `Knows` is what a task relies on, and `Guarantee` is
what every segment does to the state at most.
-/
structure Guaranteed (Starts : κ → Prop) (Meets : ε → Prop) (Inv : σ → Prop)
    (Knows : τ → σ → Prop) (Guarantee : σ → σ → Prop) : Prop where
  start : ∀ {call state}, Starts call → Inv state → Knows (enter call) state
  inv : ∀ {task state outside}, Meets outside → Inv state → Knows task state →
    Inv (segment state task outside).1
  guarantee : ∀ {task state outside}, Meets outside → Inv state → Knows task state →
    Guarantee state (segment state task outside).1
  left : ∀ {task state rest outside}, Meets outside → Inv state → Knows task state →
    (segment state task outside).2 = some rest → Knows rest (segment state task outside).1
  stable : ∀ {task before after}, Knows task before → Guarantee before after → Knows task after

/-- What a turn spawns or meets is as assumed. -/
def Admitted (Starts : κ → Prop) (Meets : ε → Prop) : Turn κ ε → Prop
  | .spawn call => Starts call
  | .resume _ outside => Meets outside

theorem mem_putBack {tasks : List τ} {place : Nat} {rest : Option τ} {task : τ}
    (member : task ∈ putBack tasks place rest) : task ∈ tasks ∨ rest = some task := by
  cases rest with
  | none => exact .inl (List.mem_of_mem_eraseIdx member)
  | some rest =>
      rcases List.mem_or_eq_of_mem_set member with old | new
      · exact .inl old
      · exact .inr (congrArg some new.symm)

namespace Guaranteed

variable {enter segment} {Starts : κ → Prop} {Meets : ε → Prop} {Inv : σ → Prop}
  {Knows : τ → σ → Prop} {Guarantee : σ → σ → Prop}
  (guaranteed : Guaranteed enter segment Starts Meets Inv Knows Guarantee)

include guaranteed

/-- A turn keeps the invariant and what every task knows. -/
theorem turn {pool : Pool σ τ} {next : Turn κ ε} (admitted : Admitted Starts Meets next)
    (inv : Inv pool.shared) (knows : ∀ task ∈ pool.tasks, Knows task pool.shared) :
    Inv (turn enter segment pool next).shared ∧
      ∀ task ∈ (turn enter segment pool next).tasks,
        Knows task (turn enter segment pool next).shared := by
  cases next with
  | spawn call =>
      refine ⟨inv, fun other member => ?_⟩
      rcases List.mem_append.mp member with old | new
      · exact knows other old
      · rw [List.mem_singleton.mp new]
        exact guaranteed.start admitted inv
  | resume place outside =>
      unfold Tasks.turn
      dsimp only
      cases found : pool.tasks[place]? with
      | none => exact ⟨inv, knows⟩
      | some task =>
          have known := knows task (List.mem_of_getElem? found)
          refine ⟨guaranteed.inv admitted inv known, fun other member => ?_⟩
          rcases mem_putBack member with old | rest
          · exact guaranteed.stable (knows other old) (guaranteed.guarantee admitted inv known)
          · exact guaranteed.left admitted inv known rest

/-- In every interleaving of segments the invariant holds throughout, and all tasks know. -/
theorem throughout {start : σ} (init : Inv start) {turns : List (Turn κ ε)}
    (admitted : ∀ next ∈ turns, Admitted Starts Meets next) :
    Throughout (Tasks.turn enter segment)
      (fun pool => Inv pool.shared ∧ ∀ task ∈ pool.tasks, Knows task pool.shared)
      ⟨start, []⟩ turns := by
  refine throughout_of_stepsMeet _ ?_ ?_ (stepsMeet_of_forall _ _ admitted)
  · rintro pool next ⟨inv, knows⟩ admitted
    exact guaranteed.turn admitted inv knows
  · exact ⟨init, fun _ none => absurd none List.not_mem_nil⟩

end Guaranteed

/-! ## Without interruption -/

section Uninterrupted

/-- The task's segments come in a row, meet the same outside, and end in the final state. -/
inductive EndsIn (outside : ε) : σ → τ → σ → Prop
  | last {state task final} (ends : segment state task outside = (final, none)) :
      EndsIn outside state task final
  | next {state task middle rest final} (goesOn : segment state task outside = (middle, some rest))
      (later : EndsIn outside middle rest final) : EndsIn outside state task final

variable {segment}

theorem EndsIn.run {outside : ε} {state final : σ} {task : τ}
    (ends : EndsIn segment outside state task final) :
    ∃ count, run (turn enter segment) ⟨state, [task]⟩
        (List.replicate count (Turn.resume 0 outside)) = (⟨final, []⟩ : Pool σ τ) := by
  induction ends with
  | last ends =>
      refine ⟨1, ?_⟩
      rw [List.replicate_one, run_cons, run_nil]
      simp [turn, ends, putBack]
  | @next state task middle rest final goesOn _ ih =>
      obtain ⟨count, later⟩ := ih
      refine ⟨count + 1, ?_⟩
      have once : turn enter segment ⟨state, [task]⟩ (Turn.resume 0 outside) =
          ⟨middle, [rest]⟩ := by
        simp [turn, goesOn, putBack]
      rw [List.replicate_succ, run_cons, once]
      exact later

/--
Calls of which each ends before the next comes do what their steps do in a row, where
a step takes a call as a whole and `shared` is the shared state of a state so stepped.
-/
theorem run_uninterrupted {ρ α : Type*} {step : ρ → α → ρ} (shared : ρ → σ) (outside : α → ε)
    (call : α → κ) (Base : ρ → Prop) (base : ∀ state action, Base state → Base (step state action))
    (ends : ∀ state action, Base state →
      EndsIn segment (outside action) (shared state) (enter (call action))
        (shared (step state action)))
    {start : ρ} (init : Base start) (actions : List α) :
    ∃ turns, Library.run (turn enter segment) ⟨shared start, []⟩ turns =
      (⟨shared (Library.run step start actions), []⟩ : Pool σ τ) := by
  induction actions generalizing start with
  | nil => exact ⟨[], rfl⟩
  | cons action rest ih =>
      obtain ⟨count, first⟩ := (ends start action init).run enter
      obtain ⟨turns, later⟩ := ih (base start action init)
      refine ⟨Turn.spawn (call action) ::
        (List.replicate count (Turn.resume 0 (outside action)) ++ turns), ?_⟩
      rw [run_cons, Library.run, List.foldl_append]
      exact (congrArg (fun pool => Library.run (turn enter segment) pool turns) first).trans later

end Uninterrupted

end YouMi.Library.Tasks
