import Mathlib.Data.List.Nodup
import Mathlib.Logic.Relation
import Mathlib.Order.WellFounded

/-!
# Parent links between named nodes

A store whose nodes each name their parent, or none, is a list of pairs of a
name and an optional parent name.  A link leads somewhere only when the parent
is still there, so following links can end at a root, at a missing parent, or
never.  `Sound` says that it always ends at a root.
-/

namespace YouMi.Library

/-- Every node's name with the name of its parent, if it has one. -/
abbrev ParentLinks (κ : Type*) := List (κ × Option κ)

namespace ParentLinks

variable {κ : Type*} {links : ParentLinks κ}

/-- A node of that name exists. -/
def Present (links : ParentLinks κ) (name : κ) : Prop := ∃ up, (name, up) ∈ links

/-- One link followed from an existing node to an existing node. -/
def Follows (links : ParentLinks κ) (child parent : κ) : Prop :=
  (child, some parent) ∈ links ∧ links.Present parent

/-- The ancestor is reached from the node by following links, in any number of steps. -/
def Descends (links : ParentLinks κ) : κ → κ → Prop := Relation.ReflTransGen links.Follows

/-- Following the links ends at a node without a parent. -/
def ReachesRoot (links : ParentLinks κ) (name : κ) : Prop :=
  ∃ root, links.Descends name root ∧ (root, none) ∈ links

/-- No parent is missing, and from every node the links lead to a root. -/
structure Sound (links : ParentLinks κ) : Prop where
  present : ∀ child parent, (child, some parent) ∈ links → links.Present parent
  rooted : ∀ name, links.Present name → links.ReachesRoot name

theorem Present.mono {more : ParentLinks κ} (sub : ∀ link ∈ links, link ∈ more) {name : κ}
    (here : links.Present name) : more.Present name := by
  obtain ⟨up, member⟩ := here
  exact ⟨up, sub _ member⟩

theorem Follows.mono {more : ParentLinks κ} (sub : ∀ link ∈ links, link ∈ more)
    {child parent : κ} (step : links.Follows child parent) : more.Follows child parent :=
  ⟨sub _ step.1, step.2.mono sub⟩

theorem Descends.mono {more : ParentLinks κ} (sub : ∀ link ∈ links, link ∈ more)
    {name ancestor : κ} (path : links.Descends name ancestor) : more.Descends name ancestor :=
  Relation.ReflTransGen.mono (fun _ _ => Follows.mono sub) _ _ path

theorem ReachesRoot.mono {more : ParentLinks κ} (sub : ∀ link ∈ links, link ∈ more) {name : κ}
    (reach : links.ReachesRoot name) : more.ReachesRoot name := by
  obtain ⟨root, path, isRoot⟩ := reach
  exact ⟨root, path.mono sub, sub _ isRoot⟩

theorem ReachesRoot.step {child parent : κ} (link : links.Follows child parent)
    (reach : links.ReachesRoot parent) : links.ReachesRoot child := by
  obtain ⟨root, path, isRoot⟩ := reach
  exact ⟨root, .head link path, isRoot⟩

/-- A new node below an existing one, or a new root, leaves the links sound. -/
theorem Sound.append (sound : links.Sound) (name : κ) (up : Option κ)
    (parent_present : ∀ parent, up = some parent → links.Present parent) :
    Sound (links ++ [(name, up)]) := by
  have sub : ∀ link ∈ links, link ∈ links ++ [(name, up)] :=
    fun _ member => List.mem_append_left _ member
  have last : (name, up) ∈ links ++ [(name, up)] := by simp
  constructor
  · intro child parent member
    rcases List.mem_append.mp member with old | new
    · exact (sound.present child parent old).mono sub
    · obtain ⟨_, rfl⟩ := Prod.mk.inj (List.mem_singleton.mp new)
      exact (parent_present parent rfl).mono sub
  · rintro other ⟨above, member⟩
    rcases List.mem_append.mp member with old | new
    · exact (sound.rooted other ⟨above, old⟩).mono sub
    · obtain ⟨rfl, rfl⟩ := Prod.mk.inj (List.mem_singleton.mp new)
      cases above with
      | none => exact ⟨other, .refl, last⟩
      | some parent =>
          have here := parent_present parent rfl
          exact ((sound.rooted parent here).mono sub).step ⟨last, here.mono sub⟩

/-- Names are given to one node each. -/
def NamesUnique (links : ParentLinks κ) : Prop := (links.map Prod.fst).Nodup

theorem NamesUnique.up_eq (unique : links.NamesUnique) {name : κ} {first second : Option κ}
    (hfirst : (name, first) ∈ links) (hsecond : (name, second) ∈ links) : first = second :=
  (Prod.mk.inj (List.inj_on_of_nodup_map unique hfirst hsecond rfl)).2

/--
A path survives a removal of nodes under which no remaining node loses its
parent: the parent of each remaining node on it remains too.
-/
theorem Descends.of_closed {kept : ParentLinks κ} (unique : links.NamesUnique)
    (sub : ∀ link ∈ kept, link ∈ links)
    (closed : ∀ child parent, (child, some parent) ∈ kept → kept.Present parent)
    {name ancestor : κ} (path : links.Descends name ancestor) (here : kept.Present name) :
    kept.Descends name ancestor ∧ kept.Present ancestor := by
  induction path using Relation.ReflTransGen.head_induction_on with
  | refl => exact ⟨.refl, here⟩
  | head link _ ih =>
      obtain ⟨up, member⟩ := here
      obtain rfl := unique.up_eq (sub _ member) link.1
      have next := closed _ _ member
      obtain ⟨rest, last⟩ := ih next
      exact ⟨.head ⟨member, next⟩ rest, last⟩

/-- What contains a node and is left by no link contains all ancestors of the node. -/
theorem Descends.confined (Inside : κ → Prop)
    (closed : ∀ child parent, Inside child → links.Follows child parent → Inside parent)
    {name ancestor : κ} (path : links.Descends name ancestor) (here : Inside name) :
    Inside ancestor := by
  induction path with
  | refl => exact here
  | tail _ link ih => exact closed _ _ ih link

/--
Along a line of nodes, each of which but the first has the one before it as its
parent, later nodes descend from earlier ones.
-/
theorem descends_of_line {α ρ : Type*} [LinearOrder ρ] [WellFoundedLT ρ] {name : α → κ}
    (rank : α → ρ) (OnLine : α → Prop)
    (rank_injective : ∀ first second, OnLine first → OnLine second →
      rank first = rank second → first = second)
    (previous : ∀ node, OnLine node → (∃ older, OnLine older ∧ rank older < rank node) →
      ∃ parent, OnLine parent ∧ rank parent < rank node ∧
        links.Follows (name node) (name parent) ∧
        ∀ older, OnLine older → rank older < rank node → rank older ≤ rank parent)
    {ancestor : α} (onLine : OnLine ancestor) :
    ∀ node, OnLine node → rank ancestor ≤ rank node →
      links.Descends (name node) (name ancestor) := by
  intro node
  induction node using (InvImage.wf rank wellFounded_lt).induction with
  | _ node ih =>
      intro here le
      rcases le.eq_or_lt with same | older
      · rw [rank_injective ancestor node onLine here same]
        exact .refl
      · obtain ⟨parent, onParent, lt, link, newest⟩ := previous node here ⟨ancestor, onLine, older⟩
        exact .head link (ih parent lt onParent (newest ancestor onLine older))

/-- Sound links stay sound exactly when no remaining node loses its parent. -/
theorem Sound.restrict_iff {kept : ParentLinks κ} (sound : links.Sound)
    (unique : links.NamesUnique) (sub : ∀ link ∈ kept, link ∈ links) :
    kept.Sound ↔ ∀ child parent, (child, some parent) ∈ kept → kept.Present parent := by
  refine ⟨fun still => still.present, fun closed => ⟨closed, ?_⟩⟩
  intro name here
  obtain ⟨root, path, isRoot⟩ := sound.rooted name (here.mono sub)
  obtain ⟨keptPath, up, member⟩ := path.of_closed unique sub closed here
  obtain rfl := unique.up_eq (sub _ member) isRoot
  exact ⟨root, keptPath, member⟩

/-- Sound links have no cycle: a node is never its own proper ancestor. -/
theorem Sound.acyclic (sound : links.Sound) (unique : links.NamesUnique) (name : κ) :
    ¬ Relation.TransGen links.Follows name name := by
  intro cycle
  obtain ⟨above, link, _⟩ := Relation.TransGen.head'_iff.mp cycle
  obtain ⟨root, path, isRoot⟩ := sound.rooted name ⟨_, link.1⟩
  -- Links are a partial function, so a cycle follows its path to the root.
  induction path using Relation.ReflTransGen.head_induction_on generalizing above with
  | refl => exact absurd (unique.up_eq isRoot link.1) (by simp)
  | head first _ ih =>
      obtain ⟨next, step, back⟩ := Relation.TransGen.head'_iff.mp cycle
      obtain rfl := Option.some.inj (unique.up_eq first.1 step.1)
      have around := Relation.TransGen.tail' back step
      obtain ⟨onward, next_link, rest⟩ := Relation.TransGen.head'_iff.mp around
      exact ih around onward next_link rest

end ParentLinks

end YouMi.Library
