import Mathlib.Data.List.Basic
import Mathlib.Data.List.Chain
import Mathlib.Logic.Relation
import Mathlib.Order.Basic

/-!
# Searching a graph for a cycle

The search goes depth first, keeps the path it is on, and reports the part of the
path that a successor closes.  Where it reports nothing, no infinite path starts at
a node that it was given.
-/

namespace YouMi.Library.DepthFirst

variable {α : Type*} [DecidableEq α]

/-- The successors of a node in turn, with the nodes visited so far. -/
def explore (visit : α → List α → Option (List α) × List α) (path : List α) :
    List α → List α → Option (List α) × List α
  | [], visited => (none, visited)
  | next :: rest, visited =>
      if next ∉ visited then
        match visit next visited with
        | (some cycle, visited) => (some cycle, visited)
        | (none, visited) => explore visit path rest visited
      else if next ∈ path then (some (path.dropWhile (· ≠ next) ++ [next]), visited)
      else explore visit path rest visited

/-- A node and what can be reached from it; the path ends before the node. -/
def visit (successors : α → List α) : Nat → List α → α → List α → Option (List α) × List α
  | 0, _, _, visited => (none, visited)
  | fuel + 1, path, node, visited =>
      explore (visit successors fuel (path ++ [node])) (path ++ [node]) (successors node)
        (node :: visited)

/-- Every node in turn, if it has not been visited from an earlier one. -/
def findCycle (successors : α → List α) (nodes : List α) : Option (List α) :=
  (explore (visit successors nodes.length []) [] nodes []).1

/-! ## What a search without a cycle has shown -/

/-- No infinite path starts at the node. -/
def Grounded (successors : α → List α) (node : α) : Prop :=
  Acc (fun next node => next ∈ successors node) node

def unvisited (nodes visited : List α) : Nat := nodes.countP (· ∉ visited)

theorem unvisited_le {nodes visited visited' : List α} (grows : visited ⊆ visited') :
    unvisited nodes visited' ≤ unvisited nodes visited := by
  refine List.countP_mono_left fun node _ fresh => ?_
  simp only [decide_eq_true_eq] at fresh ⊢
  exact fun member => fresh (grows member)

theorem unvisited_lt {nodes visited : List α} {node : α} (known : node ∈ nodes)
    (fresh : node ∉ visited) : unvisited nodes (node :: visited) < unvisited nodes visited := by
  obtain ⟨before, after, rfl⟩ := List.append_of_mem known
  unfold unvisited
  simp only [List.countP_append, List.countP_cons]
  have left : unvisited before (node :: visited) ≤ unvisited before visited :=
    unvisited_le (List.subset_cons_self node visited)
  have right : unvisited after (node :: visited) ≤ unvisited after visited :=
    unvisited_le (List.subset_cons_self node visited)
  unfold unvisited at left right
  simp only [List.mem_cons, true_or, not_true_eq_false, fresh, not_false_eq_true, decide_true,
    decide_false, Bool.false_eq_true, if_true, if_false] at left right ⊢
  omega

/-- Every node visited is on the path or grounded. -/
def Settled (successors : α → List α) (path visited : List α) : Prop :=
  ∀ node ∈ visited, node ∈ path ∨ Grounded successors node

section Search

variable {successors : α → List α} {nodes : List α}
  (closed : ∀ node ∈ nodes, ∀ next ∈ successors node, next ∈ nodes)

/-- What visiting a new node gives, if no cycle is reported. -/
def Visits (successors : α → List α) (nodes path : List α) (fuel : Nat) : Prop :=
  ∀ node ∈ nodes, ∀ visited visited', node ∉ visited → unvisited nodes visited ≤ fuel →
    Settled successors path visited →
      visit successors fuel path node visited = (none, visited') →
        visited ⊆ visited' ∧ Settled successors path visited' ∧ Grounded successors node

theorem explore_none {path : List α} {fuel : Nat} (visits : Visits successors nodes path fuel)
    {rest visited visited' : List α} (known : ∀ node ∈ rest, node ∈ nodes)
    (enough : unvisited nodes visited ≤ fuel) (settled : Settled successors path visited)
    (ends : explore (visit successors fuel path) path rest visited = (none, visited')) :
    visited ⊆ visited' ∧ Settled successors path visited' ∧
      ∀ node ∈ rest, Grounded successors node := by
  induction rest generalizing visited with
  | nil =>
      obtain rfl := (Prod.mk.inj ends).2
      exact ⟨List.Subset.refl _, settled, fun _ member => nomatch member⟩
  | cons next rest ih =>
      have later : ∀ node ∈ rest, node ∈ nodes := fun node member =>
        known node (List.mem_cons_of_mem _ member)
      unfold explore at ends
      by_cases fresh : next ∉ visited
      · rw [if_pos fresh] at ends
        split at ends
        · cases ends
        · rename_i middle isVisit
          obtain ⟨grows, settled, grounded⟩ := visits next (known next List.mem_cons_self)
            visited middle fresh enough settled isVisit
          obtain ⟨grows', settled, others⟩ :=
            ih later (Nat.le_trans (unvisited_le grows) enough) settled ends
          exact ⟨List.Subset.trans grows grows', settled,
            List.forall_mem_cons.mpr ⟨grounded, others⟩⟩
      · rw [if_neg fresh] at ends
        split at ends
        · cases ends
        · rename_i offPath
          have grounded := (settled next (not_not.mp fresh)).resolve_left offPath
          obtain ⟨grows, settled, others⟩ := ih later enough settled ends
          exact ⟨grows, settled, List.forall_mem_cons.mpr ⟨grounded, others⟩⟩

include closed in
theorem visits (path : List α) (fuel : Nat) : Visits successors nodes path fuel := by
  induction fuel generalizing path with
  | zero =>
      intro node known visited _ fresh enough
      have less := unvisited_lt known fresh
      omega
  | succ fuel ih =>
      intro node known visited visited' fresh enough settled ends
      have less := unvisited_lt known fresh
      have entered : Settled successors (path ++ [node]) (node :: visited) := by
        refine List.forall_mem_cons.mpr ⟨.inl (by simp), fun other member => ?_⟩
        exact (settled other member).imp_left (List.mem_append_left _)
      unfold visit at ends
      obtain ⟨grows, left, grounded⟩ :=
        explore_none (ih (path ++ [node])) (closed node known) (by omega) entered ends
      have isGrounded : Grounded successors node := ⟨_, fun next member => grounded next member⟩
      refine ⟨fun other member => grows (List.mem_cons_of_mem _ member), fun other member => ?_,
        isGrounded⟩
      rcases left other member with onPath | done
      · rcases List.mem_append.mp onPath with before | last
        · exact .inl before
        · rw [List.mem_singleton.mp last]
          exact .inr isGrounded
      · exact .inr done

include closed in
/-- A graph in which no cycle is found has no infinite path. -/
theorem grounded_of_findCycle (noCycle : findCycle successors nodes = none) :
    ∀ node ∈ nodes, Grounded successors node := by
  have enough : unvisited nodes [] ≤ nodes.length := List.countP_le_length
  have settled : Settled successors [] [] := fun _ member => nomatch member
  exact (explore_none (visits closed [] nodes.length) (fun _ member => member) enough settled
    (Prod.ext noCycle rfl)).2.2

end Search

/-! ## What a reported cycle is -/

/-- A path along the successors that ends where it begins. -/
structure ClosedPath (successors : α → List α) (path : List α) : Prop where
  long : 2 ≤ path.length
  steps : path.IsChain fun node next => next ∈ successors node
  closed : path.head? = path.getLast?

section Cycles

variable {successors : α → List α} {path : List α}

/-- A successor of the last node of a path that is on the path closes a part of it. -/
theorem closedPath_of_onPath {node next : α}
    (steps : (path ++ [node]).IsChain fun node next => next ∈ successors node)
    (isNext : next ∈ successors node) (onPath : next ∈ path ++ [node]) :
    ClosedPath successors ((path ++ [node]).dropWhile (· ≠ next) ++ [next]) := by
  obtain ⟨before, after, split, fresh⟩ := List.eq_append_cons_of_mem onPath
  have dropped : (path ++ [node]).dropWhile (· ≠ next) = next :: after := by
    rw [split, List.dropWhile_append_of_pos, List.dropWhile_cons_of_neg]
    · simp
    · intro other member
      have apart : other ≠ next := by
        rintro rfl
        exact fresh member
      simpa using apart
  have last : (next :: after).getLast? = some node := by
    have whole : (before ++ next :: after).getLast? = some node := by
      rw [← split]
      simp
    rwa [List.getLast?_append_of_ne_nil _ (List.cons_ne_nil _ _)] at whole
  rw [split] at steps
  rw [dropped]
  refine ⟨by simp, ?_, List.getLast?_concat.symm⟩
  refine List.isChain_append.mpr ⟨steps.right_of_append, List.isChain_singleton next, ?_⟩
  intro other isLast first isFirst
  rw [last] at isLast
  obtain rfl := Option.some.inj isLast
  obtain rfl := Option.some.inj isFirst
  exact isNext

/-- A cycle is reported by a visit, or is the part of the path that a successor closes. -/
theorem explore_some {visit : α → List α → Option (List α) × List α} {Holds : List α → Prop}
    {rest visited visited' cycle : List α}
    (visits : ∀ next ∈ rest, ∀ visited visited', visit next visited = (some cycle, visited') →
      Holds cycle)
    (closes : ∀ next ∈ rest, next ∈ path → Holds (path.dropWhile (· ≠ next) ++ [next]))
    (reports : explore visit path rest visited = (some cycle, visited')) : Holds cycle := by
  induction rest generalizing visited with
  | nil => cases reports
  | cons next rest ih =>
      have later (others : List α)
          (ends : explore visit path rest others = (some cycle, visited')) : Holds cycle :=
        ih (fun other member => visits other (List.mem_cons_of_mem _ member))
          (fun other member => closes other (List.mem_cons_of_mem _ member)) ends
      unfold explore at reports
      by_cases fresh : next ∉ visited
      · rw [if_pos fresh] at reports
        split at reports
        · rename_i isVisit
          cases reports
          exact visits next List.mem_cons_self _ _ isVisit
        · exact later _ reports
      · rw [if_neg fresh] at reports
        split at reports
        · rename_i onPath
          cases reports
          exact closes next List.mem_cons_self onPath
        · exact later _ reports

theorem visit_some {fuel : Nat} {node : α} {visited visited' cycle : List α}
    (steps : (path ++ [node]).IsChain fun node next => next ∈ successors node)
    (reports : visit successors fuel path node visited = (some cycle, visited')) :
    ClosedPath successors cycle := by
  induction fuel generalizing path node visited visited' with
  | zero => cases reports
  | succ fuel ih =>
      unfold visit at reports
      refine explore_some (fun next isNext other other' isVisit => ih ?_ isVisit)
        (fun next isNext onPath => closedPath_of_onPath steps isNext onPath) reports
      refine List.isChain_append.mpr ⟨steps, List.isChain_singleton next, ?_⟩
      intro last isLast first isFirst
      rw [List.getLast?_concat] at isLast
      obtain rfl := Option.some.inj isLast
      obtain rfl := Option.some.inj isFirst
      exact isNext

/-- What the search reports is a cycle. -/
theorem closedPath_of_findCycle {nodes cycle : List α}
    (reports : findCycle successors nodes = some cycle) : ClosedPath successors cycle := by
  have whole : explore (visit successors nodes.length []) [] nodes [] = (some cycle, _) :=
    Prod.ext reports rfl
  refine explore_some (fun next _ visited visited' isVisit => ?_) (fun next _ onPath => ?_) whole
  · exact visit_some (List.isChain_singleton next) isVisit
  · cases onPath

omit [DecidableEq α] in
theorem transGen_of_isChain {relation : α → α → Prop} {first second last : α} {rest : List α}
    (steps : (first :: second :: rest).IsChain relation)
    (isLast : (second :: rest).getLast? = some last) : Relation.TransGen relation first last := by
  induction rest generalizing first second with
  | nil =>
      obtain rfl := Option.some.inj isLast
      exact .single (List.isChain_cons_cons.mp steps).1
  | cons third rest ih =>
      obtain ⟨step, later⟩ := List.isChain_cons_cons.mp steps
      exact .head step (ih later (by simpa using isLast))

omit [DecidableEq α] in
theorem ClosedPath.transGen (isClosed : ClosedPath successors path) :
    ∃ node, Relation.TransGen (fun node next => next ∈ successors node) node node := by
  obtain ⟨long, steps, closed⟩ := isClosed
  cases path with
  | nil => simp at long
  | cons first rest =>
      cases rest with
      | nil => simp at long
      | cons second rest => exact ⟨first, transGen_of_isChain steps (by simpa using closed.symm)⟩

omit [DecidableEq α] in
/-- A node from which no infinite path starts is on no cycle. -/
theorem Grounded.not_transGen {node : α} (grounded : Grounded successors node) :
    ¬ Relation.TransGen (fun node next => next ∈ successors node) node node := by
  intro loop
  have deep := Acc.transGen grounded
  have back := Relation.transGen_swap.mpr loop
  clear grounded
  induction deep with
  | intro node _ ih => exact ih node back loop back

end Cycles

end YouMi.Library.DepthFirst
