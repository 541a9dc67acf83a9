import Mathlib.Data.List.Basic

/-!
# Runs of a step function

A program that takes one action after another is a step function on states.
This module says what holds along a whole run: in every state the run passes,
or of every step it takes.  Step conditions are read in the state before the
step, so a guarded run is one whose actions each meet the guard when they come.
-/

namespace YouMi.Library

variable {σ α : Type*} (step : σ → α → σ)

/-- The state after the actions of a list, taken in order. -/
def run (start : σ) (actions : List α) : σ := actions.foldl step start

/-- Some finite run ends in the state. -/
def Reachable (start state : σ) : Prop := ∃ actions, run step start actions = state

/-- Every action meets the condition in the state it starts from. -/
def StepsMeet (Cond : σ → α → Prop) : σ → List α → Prop
  | _, [] => True
  | state, action :: rest =>
      Cond state action ∧ StepsMeet Cond (step state action) rest

/-- Every state the run passes, its first and its last included, has the property. -/
def Throughout (Prop' : σ → Prop) (start : σ) (actions : List α) : Prop :=
  ∀ count, Prop' (run step start (actions.take count))

@[simp]
theorem run_nil (start : σ) : run step start [] = start := rfl

@[simp]
theorem run_cons (start : σ) (action : α) (rest : List α) :
    run step start (action :: rest) = run step (step start action) rest := rfl

@[simp]
theorem stepsMeet_nil (Cond : σ → α → Prop) (start : σ) :
    StepsMeet step Cond start [] := trivial

@[simp]
theorem stepsMeet_cons (Cond : σ → α → Prop) (start : σ) (action : α) (rest : List α) :
    StepsMeet step Cond start (action :: rest) ↔
      Cond start action ∧ StepsMeet step Cond (step start action) rest := Iff.rfl

theorem stepsMeet_append (Cond : σ → α → Prop) (start : σ) (first second : List α) :
    StepsMeet step Cond start (first ++ second) ↔
      StepsMeet step Cond start first ∧ StepsMeet step Cond (run step start first) second := by
  induction first generalizing start with
  | nil => exact ⟨fun meets => ⟨trivial, meets⟩, And.right⟩
  | cons action rest ih =>
      rw [List.cons_append, stepsMeet_cons, stepsMeet_cons, run_cons, ih, and_assoc]

instance StepsMeet.decidable (Cond : σ → α → Prop) [∀ state action, Decidable (Cond state action)] :
    ∀ start actions, Decidable (StepsMeet step Cond start actions)
  | _, [] => .isTrue trivial
  | start, action :: rest =>
      have := StepsMeet.decidable Cond (step start action) rest
      inferInstanceAs (Decidable (_ ∧ _))

/-- A condition on the actions alone is met wherever they come. -/
theorem stepsMeet_of_forall {Cond : α → Prop} {actions : List α} (start : σ)
    (each : ∀ action ∈ actions, Cond action) :
    StepsMeet step (fun _ => Cond) start actions := by
  induction actions generalizing start with
  | nil => trivial
  | cons action rest ih =>
      exact ⟨each action List.mem_cons_self,
        ih _ fun later member => each later (List.mem_cons_of_mem _ member)⟩

/-- Along a run the states of `Base` are not left, so what holds of each allowed step there
holds of every step of a run of allowed steps. -/
theorem stepsMeet_of_allowed (Base : σ → Prop) {Allowed Cond : σ → α → Prop}
    (base : ∀ s a, Base s → Allowed s a → Base (step s a))
    (each : ∀ s a, Base s → Allowed s a → Cond s a)
    {start : σ} (hbase : Base start) {actions : List α}
    (allowed : StepsMeet step Allowed start actions) : StepsMeet step Cond start actions := by
  induction actions generalizing start with
  | nil => trivial
  | cons action rest ih =>
      exact ⟨each start action hbase allowed.1, ih (base start action hbase allowed.1) allowed.2⟩

/-- Conditions that agree as long as the run meets them are met by the same runs. -/
theorem stepsMeet_iff_of_guarded (Base : σ → Prop) {First Second : σ → α → Prop}
    (base : ∀ s a, Base s → Second s a → Base (step s a))
    (agree : ∀ s a, Base s → (First s a ↔ Second s a))
    {start : σ} (hbase : Base start) (actions : List α) :
    StepsMeet step First start actions ↔ StepsMeet step Second start actions := by
  induction actions generalizing start with
  | nil => exact Iff.rfl
  | cons action rest ih =>
      rw [stepsMeet_cons, stepsMeet_cons, agree start action hbase]
      exact and_congr_right fun meets => ih (base start action hbase meets)

/-- Conditions that agree on the states of `Base` are met by the same runs. -/
theorem stepsMeet_congr (Base : σ → Prop) {First Second : σ → α → Prop}
    (base : ∀ s a, Base s → Base (step s a))
    (agree : ∀ s a, Base s → (First s a ↔ Second s a))
    {start : σ} (hbase : Base start) (actions : List α) :
    StepsMeet step First start actions ↔ StepsMeet step Second start actions :=
  stepsMeet_iff_of_guarded step Base (fun s a hb _ => base s a hb) agree hbase actions

/-- A run is followed by the run of an abstract step that each step follows. -/
theorem run_simulates {τ : Type*} {abstract : τ → α → τ} (view : σ → τ) (Base : σ → Prop)
    (base : ∀ s a, Base s → Base (step s a))
    (commutes : ∀ s a, Base s → view (step s a) = abstract (view s) a)
    {start : σ} (hbase : Base start) (actions : List α) :
    view (run step start actions) = run abstract (view start) actions := by
  induction actions generalizing start with
  | nil => rfl
  | cons action rest ih =>
      rw [run_cons, run_cons, ih (base start action hbase), commutes start action hbase]

theorem throughout_nil {Inv : σ → Prop} {start : σ} :
    Throughout step Inv start ([] : List α) ↔ Inv start := by
  simp [Throughout]

theorem throughout_cons {Inv : σ → Prop} {start : σ} {action : α} {rest : List α} :
    Throughout step Inv start (action :: rest) ↔
      Inv start ∧ Throughout step Inv (step start action) rest := by
  constructor
  · intro always
    exact ⟨always 0, fun count => by simpa using always (count + 1)⟩
  · rintro ⟨here, later⟩ count
    cases count with
    | zero => simpa using here
    | succ count => simpa using later count

namespace Reachable

variable {step}

theorem of_run (start : σ) (actions : List α) :
    Reachable step start (run step start actions) := ⟨actions, rfl⟩

/-- What holds at the start and is kept by every step holds in every reachable state. -/
theorem invariant (Inv : σ → Prop) {start state : σ} (init : Inv start)
    (keep : ∀ s a, Inv s → Inv (step s a)) (reach : Reachable step start state) :
    Inv state := by
  obtain ⟨actions, rfl⟩ := reach
  induction actions generalizing start with
  | nil => exact init
  | cons action rest ih => exact ih (keep start action init)

end Reachable

section Guarded

variable {step} {Cond : σ → α → Prop}

/-- A run whose steps meet two conditions meets them at each step together. -/
theorem StepsMeet.and {First Second : σ → α → Prop} {start : σ} {actions : List α}
    (first : StepsMeet step First start actions) (second : StepsMeet step Second start actions) :
    StepsMeet step (fun state action => First state action ∧ Second state action) start
      actions := by
  induction actions generalizing start with
  | nil => trivial
  | cons action rest ih => exact ⟨⟨first.1, second.1⟩, ih first.2 second.2⟩

/-- A property kept by every step that meets the guard holds throughout a guarded run. -/
theorem throughout_of_stepsMeet (Inv : σ → Prop)
    (keep : ∀ s a, Inv s → Cond s a → Inv (step s a))
    {start : σ} {actions : List α} (init : Inv start)
    (meet : StepsMeet step Cond start actions) :
    Throughout step Inv start actions := by
  induction actions generalizing start with
  | nil => exact (throughout_nil step).mpr init
  | cons action rest ih =>
      exact (throughout_cons step).mpr ⟨init, ih (keep start action init meet.1) meet.2⟩

/-- The last state of a run is one of the states it passes. -/
theorem Throughout.final {Inv : σ → Prop} {start : σ} {actions : List α}
    (always : Throughout step Inv start actions) : Inv (run step start actions) := by
  simpa using always actions.length

/--
When, on the states of `Base`, an allowed step keeps the property exactly if it
meets the condition, a run of allowed steps has the property throughout exactly
if all its steps meet the condition.
-/
theorem throughout_iff_stepsMeet_of_allowed (Base Inv : σ → Prop) (Allowed : σ → α → Prop)
    (base : ∀ s a, Base s → Allowed s a → Base (step s a))
    (exact_step : ∀ s a, Base s → Inv s → Allowed s a → (Inv (step s a) ↔ Cond s a))
    {start : σ} (hbase : Base start) (init : Inv start) {actions : List α}
    (allowed : StepsMeet step Allowed start actions) :
    Throughout step Inv start actions ↔ StepsMeet step Cond start actions := by
  induction actions generalizing start with
  | nil => simp [throughout_nil, init]
  | cons action rest ih =>
      rw [throughout_cons, stepsMeet_cons]
      constructor
      · rintro ⟨_, later⟩
        have next : Inv (step start action) := by simpa using later 0
        exact ⟨(exact_step start action hbase init allowed.1).mp next,
          (ih (base start action hbase allowed.1) next allowed.2).mp later⟩
      · rintro ⟨meets, rest_meet⟩
        have next := (exact_step start action hbase init allowed.1).mpr meets
        exact ⟨init, (ih (base start action hbase allowed.1) next allowed.2).mpr rest_meet⟩

/-- The same for runs in which every step is allowed. -/
theorem throughout_iff_stepsMeet (Base Inv : σ → Prop)
    (base : ∀ s a, Base s → Base (step s a))
    (exact_step : ∀ s a, Base s → Inv s → (Inv (step s a) ↔ Cond s a))
    {start : σ} (hbase : Base start) (init : Inv start) (actions : List α) :
    Throughout step Inv start actions ↔ StepsMeet step Cond start actions :=
  throughout_iff_stepsMeet_of_allowed Base Inv (fun _ _ => True) (fun s a hb _ => base s a hb)
    (fun s a hb hi _ => exact_step s a hb hi) hbase init
    (stepsMeet_of_forall step start fun _ _ => trivial)

/--
The same for a property of states together with a goal for each step: both hold
along a run exactly if all its steps meet the condition.
-/
theorem throughout_and_stepsMeet_iff (Base Inv : σ → Prop) {Goal : σ → α → Prop}
    (base : ∀ s a, Base s → Base (step s a))
    (exact_step : ∀ s a, Base s → Inv s → (Inv (step s a) ∧ Goal s a ↔ Cond s a))
    {start : σ} (hbase : Base start) (init : Inv start) (actions : List α) :
    Throughout step Inv start actions ∧ StepsMeet step Goal start actions ↔
      StepsMeet step Cond start actions := by
  induction actions generalizing start with
  | nil => simp [throughout_nil, init]
  | cons action rest ih =>
      rw [throughout_cons, stepsMeet_cons, stepsMeet_cons]
      constructor
      · rintro ⟨⟨_, later⟩, goal, goals⟩
        have next : Inv (step start action) := by simpa using later 0
        exact ⟨(exact_step start action hbase init).mp ⟨next, goal⟩,
          (ih (base start action hbase) next).mp ⟨later, goals⟩⟩
      · rintro ⟨meets, rest_meet⟩
        obtain ⟨next, goal⟩ := (exact_step start action hbase init).mpr meets
        obtain ⟨later, goals⟩ := (ih (base start action hbase) next).mpr rest_meet
        exact ⟨⟨init, later⟩, goal, goals⟩

end Guarded

end YouMi.Library

/-!
## What a run puts into a queue and takes from it

Every step may put items at the back of a queue and take items from its front.
Over a whole run nothing is lost, doubled or reordered: what was taken, followed
by what is still queued, is what was queued at first followed by what was put.
-/

namespace YouMi.Library

variable {σ α β : Type*} (step : σ → α → σ)

/-- What the steps of a run give out, in order. -/
def along (out : σ → α → List β) : σ → List α → List β
  | _, [] => []
  | state, action :: rest => out state action ++ along out (step state action) rest

/-- The step takes from the front of the queue and puts at its back. -/
def Flows (queue : σ → List β) (put taken : σ → α → List β) (state : σ) (action : α) : Prop :=
  queue state ++ put state action = taken state action ++ queue (step state action)

variable {step} {queue : σ → List β} {put taken : σ → α → List β}

/-- What a run of flowing steps takes and leaves is what it found and put. -/
theorem conserved {start : σ} {actions : List α}
    (flows : StepsMeet step (Flows step queue put taken) start actions) :
    queue start ++ along step put start actions =
      along step taken start actions ++ queue (run step start actions) := by
  induction actions generalizing start with
  | nil => simp [along]
  | cons action rest ih =>
      obtain ⟨flow, later⟩ := flows
      rw [along, along, run_cons, ← List.append_assoc, flow, List.append_assoc, ih later,
        List.append_assoc]

theorem along_map {γ : Type*} (out : σ → α → List β) (f : β → γ) (start : σ)
    (actions : List α) :
    along step (fun state action => (out state action).map f) start actions =
      (along step out start actions).map f := by
  induction actions generalizing start with
  | nil => rfl
  | cons action rest ih =>
      rw [along, along, ih, List.map_append]

/-- A run gives out what the abstract run gives out that its steps follow. -/
theorem along_simulates {τ : Type*} {abstract : τ → α → τ} {out : σ → α → List β}
    {given : τ → α → List β} (view : σ → τ) (Base : σ → Prop)
    (base : ∀ s a, Base s → Base (step s a))
    (commutes : ∀ s a, Base s → view (step s a) = abstract (view s) a)
    (agree : ∀ s a, Base s → out s a = given (view s) a)
    {start : σ} (hbase : Base start) (actions : List α) :
    along step out start actions = along abstract given (view start) actions := by
  induction actions generalizing start with
  | nil => rfl
  | cons action rest ih =>
      rw [along, along, ih (base start action hbase), commutes start action hbase,
        agree start action hbase]

end YouMi.Library
