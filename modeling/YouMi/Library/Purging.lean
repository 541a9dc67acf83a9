import YouMi.Library.Runs

/-!
# Noninterference by purging

Some actions of a run are one party's own.  What the party sees of its actions does not
depend on the others' if it is the same in the run from which those are removed.  The
proof rule compares the two runs by a relation that an own action keeps on both sides
and another's action keeps on one.
-/

namespace YouMi.Library

variable {σ α ο : Type*} (step : σ → α → σ) (sees : σ → α → ο) (own : α → Bool)

/-- What the party sees along a run: an outcome of each of its own actions. -/
def views : σ → List α → List ο
  | _, [] => []
  | state, action :: rest =>
      if own action then sees state action :: views (step state action) rest
      else views (step state action) rest

/-- The party sees the same when the actions of the others are removed. -/
def Unaffected (start : σ) (actions : List α) : Prop :=
  views step sees own start actions = views step sees own start (actions.filter own)

@[simp]
theorem views_cons_own {state : σ} {action : α} {rest : List α} (mine : own action = true) :
    views step sees own state (action :: rest) =
      sees state action :: views step sees own (step state action) rest := if_pos mine

@[simp]
theorem views_cons_other {state : σ} {action : α} {rest : List α} (mine : own action = false) :
    views step sees own state (action :: rest) = views step sees own (step state action) rest :=
  if_neg (by simp [mine])

variable {step sees own}

/--
Two runs, one without the others' actions, are seen alike when states that are alike stay so:
after an own action in both, which is seen alike, and after another's action in one of them.
-/
theorem views_eq_of_alike (Alike : σ → σ → Prop) {Cond : σ → α → Prop}
    (both : ∀ s t a, Alike s t → own a = true → Cond s a →
      sees s a = sees t a ∧ Alike (step s a) (step t a))
    (one : ∀ s t a, Alike s t → own a = false → Cond s a → Alike (step s a) t)
    {s t : σ} (alike : Alike s t) {actions : List α} (meet : StepsMeet step Cond s actions) :
    views step sees own s actions = views step sees own t (actions.filter own) := by
  induction actions generalizing s t with
  | nil => rfl
  | cons action rest ih =>
      obtain ⟨here, later⟩ := meet
      cases mine : own action with
      | true =>
          obtain ⟨seen, next⟩ := both s t action alike mine here
          rw [List.filter_cons_of_pos mine, views_cons_own _ _ _ mine,
            views_cons_own _ _ _ mine, seen, ih next later]
      | false =>
          rw [List.filter_cons_of_neg (by simp [mine]), views_cons_other _ _ _ mine]
          exact ih (one s t action alike mine here) later

/-- A party is unaffected in a run whose steps meet the condition. -/
theorem unaffected_of_alike (Alike : σ → σ → Prop) {Cond : σ → α → Prop}
    (both : ∀ s t a, Alike s t → own a = true → Cond s a →
      sees s a = sees t a ∧ Alike (step s a) (step t a))
    (one : ∀ s t a, Alike s t → own a = false → Cond s a → Alike (step s a) t)
    {start : σ} (alike : Alike start start) {actions : List α}
    (meet : StepsMeet step Cond start actions) : Unaffected step sees own start actions :=
  views_eq_of_alike Alike both one alike meet

end YouMi.Library
