import Mathlib.Data.List.Infix
import Mathlib.Data.List.Nodup

/-!
# Trees of files with symbolic links

A place is the canonical path of a file, its innermost name first, so that a place is
under another if it ends in it.  A written path is walked name by name: a link is
replaced by its target, and `..` leaves the directory that was reached.  The walk takes
as many steps as it is given, and a circle of links uses up any number of them.
-/

namespace YouMi.Library

abbrev Place := List String

/-- A path as it is written, without empty names and those of the directory itself. -/
structure Route where
  absolute : Bool
  names : List String

inductive Node (γ : Type*) where
  | dir
  | file (content : γ)
  | link (target : Route)

/-- What it is, whatever it contains. -/
def Node.bare {γ : Type*} : Node γ → Node Unit
  | .dir => .dir
  | .file _ => .file ()
  | .link target => .link target

/-- What is at each place, and the names in it in the order in which they are listed.
Whatever is somewhere is in a directory, and no deeper than the tree. -/
structure FileTree (γ : Type*) where
  node : Place → Option (Node γ)
  names : Place → List String
  depth : Nat
  root : node [] = some .dir
  listed : ∀ name place, name ∈ names place ↔ node (name :: place) ≠ none
  distinct : ∀ place, (names place).Nodup
  named : ∀ place, ".." ∉ names place
  closed : ∀ name place, node (name :: place) ≠ none → node place = some .dir
  bounded : ∀ place, node place ≠ none → place.length ≤ depth

/-! ## Walking -/

section Walk

variable (links : Place → Option Route) (enter : Place → Bool)

/-- The place that the names lead to; `none` where a place on the way cannot be entered. -/
def walk : Nat → Place → List String → Option Place
  | _, here, [] => some here
  | 0, _, _ :: _ => none
  | steps + 1, here, name :: rest =>
      if enter here then
        if name = ".." then walk steps here.tail rest
        else
          match links (name :: here) with
          | none => walk steps (name :: here) rest
          | some target =>
              walk steps (if target.absolute then [] else here) (target.names ++ rest)
      else none

/-- Neither the place nor one that it is under is a link, and none is called `..`. -/
def Real (place : Place) : Prop :=
  ∀ name above, name :: above <:+ place → links (name :: above) = none ∧ name ≠ ".."

variable {links enter}

theorem real_nil : Real links [] := by
  intro name above suffix
  exact absurd (List.eq_nil_of_suffix_nil suffix) (List.cons_ne_nil name above)

theorem real_cons_iff {name : String} {place : Place} :
    Real links (name :: place) ↔
      (links (name :: place) = none ∧ name ≠ "..") ∧ Real links place := by
  constructor
  · intro real
    exact ⟨real name place (List.suffix_refl _),
      fun other above suffix => real other above (suffix.trans (List.suffix_cons name place))⟩
  · rintro ⟨own, real⟩ other above suffix
    rcases List.suffix_cons_iff.mp suffix with same | within
    · cases same
      exact own
    · exact real other above within

theorem Real.above {place base : Place} (real : Real links place) (suffix : base <:+ place) :
    Real links base :=
  fun name above within => real name above (within.trans suffix)

theorem Real.tail {place : Place} (real : Real links place) : Real links place.tail :=
  real.above (List.tail_suffix place)

/-- A walk ends at a real place. -/
theorem walk_real {steps : Nat} {here place : Place} {names : List String}
    (real : Real links here) (walked : walk links enter steps here names = some place) :
    Real links place := by
  induction steps generalizing here names with
  | zero =>
      cases names with
      | nil =>
          cases walked
          exact real
      | cons name rest => cases walked
  | succ steps ih =>
      cases names with
      | nil =>
          cases walked
          exact real
      | cons name rest =>
          rw [walk] at walked
          split at walked
          · split at walked
            · exact ih real.tail walked
            · rename_i named
              split at walked
              · rename_i plain
                exact ih (real_cons_iff.mpr ⟨⟨plain, named⟩, real⟩) walked
              · rename_i target _
                refine ih ?_ walked
                split
                · exact real_nil
                · exact real
          · cases walked

/-- Each step goes down by at most one name. -/
theorem length_walk_le {steps : Nat} {here place : Place} {names : List String}
    (walked : walk links enter steps here names = some place) :
    place.length ≤ here.length + steps := by
  induction steps generalizing here names with
  | zero =>
      cases names with
      | nil =>
          cases walked
          exact Nat.le_refl _
      | cons name rest => cases walked
  | succ steps ih =>
      cases names with
      | nil =>
          cases walked
          exact Nat.le_add_right _ _
      | cons name rest =>
          rw [walk] at walked
          split at walked
          · split at walked
            · have bound := ih walked
              rw [List.length_tail] at bound
              omega
            · split at walked
              · have bound := ih walked
                rw [List.length_cons] at bound
                omega
              · have bound := ih walked
                split at bound
                · rw [List.length_nil] at bound
                  omega
                · omega
          · cases walked

/-- Along a real place the walk follows its names. -/
theorem walk_of_real {steps : Nat} {here : Place} (names : List String)
    (real : Real links (names.reverse ++ here)) (enough : names.length ≤ steps)
    (open_way : ∀ name above, name :: above <:+ names.reverse ++ here → here <:+ above →
      enter above = true) :
    walk links enter steps here names = some (names.reverse ++ here) := by
  induction names generalizing steps here with
  | nil =>
      cases steps <;> rfl
  | cons name rest ih =>
      obtain ⟨steps, rfl⟩ : ∃ less, steps = less + 1 :=
        ⟨steps - 1, by rw [List.length_cons] at enough; omega⟩
      have shape : (name :: rest).reverse ++ here = rest.reverse ++ (name :: here) := by
        rw [List.reverse_cons, List.append_assoc, List.singleton_append]
      have suffix : name :: here <:+ (name :: rest).reverse ++ here := by
        rw [shape]
        exact List.suffix_append _ _
      obtain ⟨plain, named⟩ := real name here suffix
      rw [walk, if_pos (open_way name here suffix (List.suffix_refl here)), if_neg named, plain]
      dsimp only
      rw [shape] at real open_way ⊢
      refine ih real (by rw [List.length_cons] at enough; omega) fun other above within below => ?_
      exact open_way other above within ((List.suffix_cons name here).trans below)

/-- A walk along a real place does not end anywhere else. -/
theorem eq_of_walk {steps : Nat} {here place : Place} {names : List String}
    (real : Real links (names.reverse ++ here))
    (walked : walk links enter steps here names = some place) :
    place = names.reverse ++ here := by
  induction names generalizing steps here with
  | nil =>
      rw [walk] at walked
      cases walked
      rfl
  | cons name rest ih =>
      have shape : (name :: rest).reverse ++ here = rest.reverse ++ (name :: here) := by
        rw [List.reverse_cons, List.append_assoc, List.singleton_append]
      rw [shape] at real ⊢
      obtain ⟨plain, named⟩ := real name here (List.suffix_append _ _)
      cases steps with
      | zero => cases walked
      | succ steps =>
          rw [walk, if_neg named, plain] at walked
          by_cases entered : enter here = true
          · rw [if_pos entered] at walked
            exact ih real walked
          · rw [if_neg entered] at walked
            cases walked

/-- Where every place can be entered, the walk ends where it ended when some could not. -/
theorem walk_of_entered {steps : Nat} {here place : Place} {names : List String}
    (walked : walk links enter steps here names = some place) :
    walk links (fun _ => true) steps here names = some place := by
  induction steps generalizing here names with
  | zero =>
      cases names with
      | nil => exact walked
      | cons name rest => cases walked
  | succ steps ih =>
      cases names with
      | nil => exact walked
      | cons name rest =>
          rw [walk] at walked ⊢
          split at walked
          · rw [if_pos rfl]
            split at walked
            · rename_i up
              rw [if_pos up]
              exact ih walked
            · rename_i named
              rw [if_neg named]
              split at walked
              · exact ih walked
              · exact ih walked
          · cases walked

end Walk

/-! ## Reading a tree -/

namespace FileTree

variable {γ : Type*} (t : FileTree γ)

def links (place : Place) : Option Route :=
  match t.node place with
  | some (.link target) => some target
  | _ => none

def isDir (place : Place) : Bool :=
  match t.node place with
  | some .dir => true
  | _ => false

/-- The canonical path, links resolved; what does not exist is taken as it is named. -/
def realpath (steps : Nat) (here : Place) (names : List String) : Option Place :=
  walk t.links (fun _ => true) steps here names

/-- The place at which a path is opened: every name but the last is that of a directory. -/
def find (steps : Nat) (here : Place) (names : List String) : Option Place :=
  walk t.links t.isDir steps here names

/-- What is there when an absolute path is opened. -/
def stat (steps : Nat) (place : Place) : Option (Node γ) :=
  (t.find steps [] place.reverse).bind t.node

variable {t}

theorem isDir_iff {place : Place} : t.isDir place = true ↔ t.node place = some .dir := by
  unfold isDir
  split
  · rename_i dir
    exact iff_of_true rfl dir
  · rename_i other
    exact ⟨fun absurd => Bool.noConfusion absurd, fun dir => absurd dir other⟩

theorem links_eq_none_of_node {place : Place} {node : Node γ} (found : t.node place = some node)
    (plain : ∀ target, node ≠ .link target) : t.links place = none := by
  unfold links
  rw [found]
  cases node with
  | link target => exact absurd rfl (plain target)
  | _ => rfl

/-- The tree with nothing in it. -/
def empty (γ : Type*) : FileTree γ where
  node
    | [] => some .dir
    | _ :: _ => none
  names _ := []
  depth := 0
  root := rfl
  listed _ _ := iff_of_false List.not_mem_nil fun present => present rfl
  distinct _ := List.nodup_nil
  named _ := List.not_mem_nil
  closed _ _ present := absurd rfl present
  bounded
    | [], _ => Nat.le_refl 0
    | _ :: _, present => absurd rfl present

/-- Whatever is under a place has it as a directory. -/
theorem isDir_of_suffix {place base : Place} {name : String} (present : t.node place ≠ none)
    (suffix : name :: base <:+ place) : t.isDir base = true := by
  induction place with
  | nil => exact absurd (List.eq_nil_of_suffix_nil suffix) (List.cons_ne_nil _ _)
  | cons first above ih =>
      have up := t.closed first above present
      rcases List.suffix_cons_iff.mp suffix with same | within
      · cases same
        exact isDir_iff.mpr up
      · refine ih ?_ within
        rw [up]
        exact nofun

/-- A real place is its own canonical path. -/
theorem eq_of_realpath {steps : Nat} {place found : Place} (real : Real t.links place)
    (walked : t.realpath steps [] place.reverse = some found) : found = place := by
  have names : place.reverse.reverse ++ [] = place := by
    rw [List.reverse_reverse, List.append_nil]
  have same := eq_of_walk (by rw [names]; exact real) walked
  rw [names] at same
  exact same

/-- What is opened is at the canonical path. -/
theorem realpath_of_find {steps : Nat} {here found : Place} {names : List String}
    (walked : t.find steps here names = some found) :
    t.realpath steps here names = some found := walk_of_entered walked

/-- At a real place the tree is opened where it is named. -/
theorem stat_of_real {steps : Nat} {place : Place} (real : Real t.links place)
    (enough : place.length ≤ steps) : t.stat steps place = t.node place := by
  have names : place.reverse.reverse ++ [] = place := by
    rw [List.reverse_reverse, List.append_nil]
  have way (enter : Place → Bool)
      (open_way : ∀ name above, name :: above <:+ place → enter above = true) :
      walk t.links enter steps [] place.reverse = some place := by
    have followed : walk t.links enter steps [] place.reverse = some (place.reverse.reverse ++ []) :=
      walk_of_real place.reverse (by rw [names]; exact real)
        (by rw [List.length_reverse]; exact enough)
        (fun name above suffix _ => open_way name above (by rw [names] at suffix; exact suffix))
    rw [names] at followed
    exact followed
  unfold stat find
  cases present : t.node place with
  | some node =>
      rw [way t.isDir fun name above => isDir_of_suffix (by rw [present]; exact nofun)]
      exact present
  | none =>
      cases walked : walk t.links t.isDir steps [] place.reverse with
      | none => rfl
      | some found =>
          cases eq_of_realpath real (realpath_of_find walked)
          exact present

/-! ## Writing -/

/-- A leaf can be put there: in a directory, and in place of a file at most. -/
def Free (t : FileTree γ) (place : Place) : Prop :=
  place ≠ [] ∧ t.isDir place.tail = true ∧ t.isDir place = false ∧ t.links place = none ∧
    place.head? ≠ some ".."

instance (place : Place) : Decidable (t.Free place) := by
  unfold Free
  infer_instance

theorem Free.ne_of_isDir {place other : Place} (free : t.Free place)
    (dir : t.isDir other = true) : other ≠ place := by
  rintro rfl
  have closed := free.2.2.1
  rw [dir] at closed
  cases closed

theorem Free.exists_cons {place : Place} (free : t.Free place) :
    ∃ name above, place = name :: above ∧ t.node above = some .dir := by
  obtain ⟨some_name, dir, -⟩ := free
  cases place with
  | nil => exact absurd rfl some_name
  | cons name above => exact ⟨name, above, rfl, isDir_iff.mp dir⟩

/-- A file can be written again. -/
theorem free_of_file {place : Place} {content : γ} (real : Real t.links place)
    (file : t.node place = some (.file content)) : t.Free place := by
  cases place with
  | nil =>
      rw [t.root] at file
      cases file
  | cons name above =>
      obtain ⟨plain, named⟩ := real name above (List.suffix_refl _)
      refine ⟨List.cons_ne_nil name above, ?_, ?_, plain, ?_⟩
      · exact isDir_iff.mpr (t.closed name above (by rw [file]; exact nofun))
      · unfold isDir
        rw [file]
      · rintro ⟨⟩
        exact named rfl

/-- The names of a directory with one that is new at the end. -/
def listing (t : FileTree γ) (place other : Place) : List String :=
  match place with
  | name :: above =>
      if other = above ∧ name ∉ t.names other then t.names other ++ [name] else t.names other
  | [] => t.names other

theorem mem_listing {place other : Place} {name : String} :
    name ∈ t.listing place other ↔ name ∈ t.names other ∨ name :: other = place := by
  unfold listing
  split
  · rename_i last above
    split
    · rename_i fresh
      rw [List.mem_append, List.mem_singleton, List.cons.injEq]
      exact or_congr_right ⟨fun same => ⟨same, fresh.1⟩, And.left⟩
    · rename_i old
      refine ⟨.inl, fun either => either.elim id fun same => ?_⟩
      cases same
      by_contra new
      exact old ⟨rfl, new⟩
  · exact ⟨.inl, fun either => either.elim id fun same => absurd same (List.cons_ne_nil _ _)⟩

theorem nodup_listing (place other : Place) : (t.listing place other).Nodup := by
  unfold listing
  split
  · split
    · rename_i fresh
      refine List.nodup_append.mpr ⟨t.distinct other, List.nodup_singleton _, ?_⟩
      intro name here last there same
      subst same
      exact fresh.2 (List.mem_singleton.mp there ▸ here)
    · exact t.distinct other
  · exact t.distinct other

/-- The tree with a file or a new directory at a free place. -/
def plant (t : FileTree γ) (place : Place) (leaf : Node γ) : FileTree γ :=
  if free : t.Free place then
    { node := fun other => if other = place then some leaf else t.node other
      names := t.listing place
      depth := max t.depth place.length
      root := by
        rw [if_neg (Ne.symm free.1)]
        exact t.root
      listed := by
        intro name other
        rw [mem_listing, t.listed]
        split
        · rename_i same
          exact iff_of_true (.inr same) nofun
        · rename_i differ
          exact or_iff_left differ
      distinct := nodup_listing place
      named := by
        intro other here
        rcases mem_listing.mp here with old | new
        · exact t.named other old
        · exact free.2.2.2.2 (new ▸ rfl)
      closed := by
        intro name above present
        have dir : t.node above = some .dir := by
          split at present
          · rename_i same
            obtain ⟨last, rest, shape, dir⟩ := free.exists_cons
            rw [shape] at same
            cases same
            exact dir
          · exact t.closed name above present
        rw [if_neg (free.ne_of_isDir (isDir_iff.mpr dir))]
        exact dir
      bounded := by
        intro other present
        split at present
        · rename_i same
          rw [same]
          exact Nat.le_max_right _ _
        · exact Nat.le_trans (t.bounded other present) (Nat.le_max_left _ _) }
  else t

theorem node_plant {place : Place} (free : t.Free place) (leaf : Node γ) (other : Place) :
    (t.plant place leaf).node other = if other = place then some leaf else t.node other := by
  unfold plant
  rw [dif_pos free]

theorem plant_of_not_free {place : Place} (taken : ¬t.Free place) (leaf : Node γ) :
    t.plant place leaf = t := dif_neg taken

/-- What is anywhere else stays. -/
theorem node_plant_ne {place other : Place} {leaf : Node γ} (ne : other ≠ place) :
    (t.plant place leaf).node other = t.node other := by
  by_cases free : t.Free place
  · exact (node_plant free leaf other).trans (if_neg ne)
  · rw [plant_of_not_free free]

/-- No link comes or goes. -/
theorem links_plant {place : Place} {leaf : Node γ} (plain : ∀ target, leaf ≠ .link target) :
    (t.plant place leaf).links = t.links := by
  by_cases free : t.Free place
  · funext other
    by_cases same : other = place
    · have there : (t.plant place leaf).node other = some leaf :=
        (node_plant free leaf other).trans (if_pos same)
      rw [links_eq_none_of_node there plain, same, free.2.2.2.1]
    · unfold links
      rw [node_plant_ne same]
  · rw [plant_of_not_free free]

/-- A directory stays one. -/
theorem isDir_plant {place other : Place} {leaf : Node γ} (dir : t.isDir other = true) :
    (t.plant place leaf).isDir other = true := by
  by_cases free : t.Free place
  · rw [isDir_iff, node_plant_ne (free.ne_of_isDir dir)]
    exact isDir_iff.mp dir
  · rw [plant_of_not_free free]
    exact dir

/-- `mkdir -p`; `none` where something else is in the way. -/
def makeDirs (t : FileTree γ) : Place → Option (FileTree γ)
  | [] => some t
  | name :: above =>
      if t.isDir (name :: above) then some t
      else
        match makeDirs t above with
        | none => none
        | some made =>
            if made.node (name :: above) = none then some (made.plant (name :: above) .dir)
            else none

theorem makeDirs_of_isDir {place : Place} (dir : t.isDir place = true) :
    t.makeDirs place = some t := by
  cases place with
  | nil => rfl
  | cons name above => exact if_pos dir

/-! ## What writing keeps -/

/-- Under the base there may be more than before; everything else is as it was. -/
structure Grows (base : Place) (t u : FileTree γ) : Prop where
  outside : ∀ place, ¬base <:+ place → u.node place = t.node place
  links : u.links = t.links
  dirs : ∀ place, t.isDir place = true → u.isDir place = true
  present : ∀ place, t.node place ≠ none → u.node place ≠ none

variable {u v : FileTree γ} {base place : Place}

theorem Grows.refl (base : Place) (t : FileTree γ) : Grows base t t :=
  ⟨fun _ _ => rfl, rfl, fun _ dir => dir, fun _ present => present⟩

theorem Grows.trans (first : Grows base t u) (second : Grows base u v) : Grows base t v where
  outside place out := (second.outside place out).trans (first.outside place out)
  links := second.links.trans first.links
  dirs place dir := second.dirs place (first.dirs place dir)
  present place here := second.present place (first.present place here)

theorem grows_plant (under : base <:+ place) {leaf : Node γ}
    (plain : ∀ target, leaf ≠ .link target) : Grows base t (t.plant place leaf) where
  outside other out := node_plant_ne fun same => out (same ▸ under)
  links := links_plant plain
  dirs _ := isDir_plant
  present other here := by
    by_cases free : t.Free place
    · rw [node_plant free]
      split
      · exact nofun
      · exact here
    · rw [plant_of_not_free free]
      exact here

/-- Directories are made under one that there is. -/
theorem grows_makeDirs (under : base <:+ place) (dir : t.isDir base = true)
    (made : t.makeDirs place = some u) : Grows base t u := by
  induction place generalizing u with
  | nil =>
      cases made
      exact Grows.refl base t
  | cons name above ih =>
      rw [makeDirs] at made
      split at made
      · cases made
        exact Grows.refl base t
      · rename_i missing
        have within : base <:+ above := by
          rcases List.suffix_cons_iff.mp under with same | within
          · rw [same] at dir
            exact absurd dir missing
          · exact within
        split at made
        · cases made
        · rename_i first made_above
          split at made
          · cases made
            exact (ih within made_above).trans (grows_plant under nofun)
          · cases made

/-- What a leaf at the base or under it is put into is made under the base. -/
theorem grows_makeDirs_tail (under : base <:+ place) (dir : t.isDir base = true)
    (made : t.makeDirs place.tail = some u) : Grows base t u := by
  cases place with
  | nil =>
      cases made
      exact Grows.refl base t
  | cons name above =>
      rcases List.suffix_cons_iff.mp under with same | within
      · subst same
        have up := isDir_iff.mpr (t.closed name above (by rw [isDir_iff.mp dir]; exact nofun))
        cases (makeDirs_of_isDir up).symm.trans made
        exact Grows.refl _ t
      · exact grows_makeDirs within dir made

/-- Whatever there is stays as it is when directories are made. -/
theorem node_makeDirs (made : t.makeDirs place = some u) {other : Place}
    (present : t.node other ≠ none) : u.node other = t.node other := by
  induction place generalizing u with
  | nil =>
      cases made
      rfl
  | cons name above ih =>
      rw [makeDirs] at made
      split at made
      · cases made
        rfl
      · split at made
        · cases made
        · rename_i first made_above
          split at made
          · rename_i absent
            cases made
            rw [node_plant_ne]
            · exact ih made_above
            · rintro rfl
              exact present ((ih made_above).symm.trans absent)
          · cases made

/-- No file comes with directories. -/
theorem file_of_makeDirs (made : t.makeDirs place = some u) {other : Place} {content : γ}
    (file : u.node other = some (.file content)) : t.node other = some (.file content) := by
  induction place generalizing u with
  | nil =>
      cases made
      exact file
  | cons name above ih =>
      rw [makeDirs] at made
      split at made
      · cases made
        exact file
      · split at made
        · cases made
        · rename_i first made_above
          split at made
          · cases made
            refine ih made_above ?_
            by_cases free : first.Free (name :: above)
            · rw [node_plant free] at file
              split at file
              · cases file
              · exact file
            · rw [plant_of_not_free free] at file
              exact file
          · cases made

/-! ## Trees that differ in what files outside contain -/

/-- What is there, whatever files contain. -/
def shape (t : FileTree γ) (place : Place) : Option (Node Unit) := (t.node place).map Node.bare

/-- The trees differ at most in the contents of files that are not under the base. -/
structure Alike (base : Place) (t u : FileTree γ) : Prop where
  shape : t.shape = u.shape
  names : t.names = u.names
  depth : t.depth = u.depth
  inside : ∀ place, base <:+ place → t.node place = u.node place

theorem links_eq_shape (t : FileTree γ) (place : Place) :
    t.links place = match t.shape place with
      | some (.link target) => some target
      | _ => none := by
  unfold links FileTree.shape
  cases t.node place with
  | none => rfl
  | some node => cases node <;> rfl

theorem isDir_eq_shape (t : FileTree γ) (place : Place) :
    t.isDir place = match t.shape place with
      | some .dir => true
      | _ => false := by
  unfold isDir FileTree.shape
  cases t.node place with
  | none => rfl
  | some node => cases node <;> rfl

namespace Alike

theorem links (alike : Alike base t u) : t.links = u.links := by
  funext place
  rw [links_eq_shape, links_eq_shape, alike.shape]

theorem isDir (alike : Alike base t u) : t.isDir = u.isDir := by
  funext place
  rw [isDir_eq_shape, isDir_eq_shape, alike.shape]

theorem realpath (alike : Alike base t u) : t.realpath = u.realpath := by
  funext steps here names
  unfold FileTree.realpath
  rw [alike.links]

theorem find (alike : Alike base t u) : t.find = u.find := by
  funext steps here names
  unfold FileTree.find
  rw [alike.links, alike.isDir]

theorem stat_bare (alike : Alike base t u) (steps : Nat) (place : Place) :
    (t.stat steps place).map Node.bare = (u.stat steps place).map Node.bare := by
  unfold FileTree.stat
  rw [alike.find]
  cases u.find steps [] place.reverse with
  | none => rfl
  | some found => exact congrFun alike.shape found

/-- What is opened under the base is the same. -/
theorem stat (alike : Alike base t u) {steps : Nat} {place : Place}
    (inside : ∀ found, t.find steps [] place.reverse = some found → base <:+ found) :
    t.stat steps place = u.stat steps place := by
  unfold FileTree.stat
  rw [← alike.find]
  cases walked : t.find steps [] place.reverse with
  | none => rfl
  | some found => exact alike.inside found (inside found walked)

theorem free_iff (alike : Alike base t u) (place : Place) : t.Free place ↔ u.Free place := by
  unfold Free
  rw [alike.links, alike.isDir]

theorem plant (alike : Alike base t u) (place : Place) (leaf : Node γ) :
    Alike base (t.plant place leaf) (u.plant place leaf) := by
  by_cases free : t.Free place
  · have free_too := (alike.free_iff place).mp free
    refine ⟨?_, ?_, ?_, fun other within => ?_⟩
    · funext other
      unfold FileTree.shape
      rw [node_plant free, node_plant free_too]
      split
      · rfl
      · exact congrFun alike.shape other
    · unfold FileTree.plant listing
      rw [dif_pos free, dif_pos free_too]
      dsimp only
      rw [alike.names]
    · unfold FileTree.plant
      rw [dif_pos free, dif_pos free_too]
      dsimp only
      rw [alike.depth]
    · rw [node_plant free, node_plant free_too, alike.inside other within]
  · rw [plant_of_not_free free,
      plant_of_not_free fun free_too => free ((alike.free_iff place).mpr free_too)]
    exact alike

/-- Files outside that differ in what they contain. -/
theorem of_plant (out : ¬base <:+ place) (first second : γ) :
    Alike base (t.plant place (.file first)) (t.plant place (.file second)) := by
  by_cases free : t.Free place
  · refine ⟨?_, ?_, ?_, fun other within => ?_⟩
    · funext other
      unfold FileTree.shape
      rw [node_plant free, node_plant free]
      split
      · rfl
      · rfl
    · unfold FileTree.plant
      rw [dif_pos free, dif_pos free]
    · unfold FileTree.plant
      rw [dif_pos free, dif_pos free]
    · have elsewhere : other ≠ place := by
        rintro rfl
        exact out within
      rw [node_plant_ne elsewhere, node_plant_ne elsewhere]
  · rw [plant_of_not_free free, plant_of_not_free free]
    exact ⟨rfl, rfl, rfl, fun _ _ => rfl⟩

/-- The same directories can be made in both. -/
theorem makeDirs (alike : Alike base t u) (place : Place) :
    (t.makeDirs place = none ∧ u.makeDirs place = none) ∨
      ∃ made made_too, t.makeDirs place = some made ∧ u.makeDirs place = some made_too ∧
        Alike base made made_too := by
  induction place with
  | nil => exact .inr ⟨t, u, rfl, rfl, alike⟩
  | cons name above ih =>
      rw [FileTree.makeDirs, FileTree.makeDirs, alike.isDir]
      split
      · exact .inr ⟨t, u, rfl, rfl, alike⟩
      · rcases ih with ⟨refused, refused_too⟩ | ⟨made, made_too, yes, yes_too, both⟩
        · rw [refused, refused_too]
          exact .inl ⟨rfl, rfl⟩
        · rw [yes, yes_too]
          dsimp only
          have same : made.node (name :: above) = none ↔ made_too.node (name :: above) = none := by
            have shapes := congrFun both.shape (name :: above)
            unfold FileTree.shape at shapes
            rw [← Option.map_eq_none_iff, shapes, Option.map_eq_none_iff]
          by_cases free : made.node (name :: above) = none
          · rw [if_pos free, if_pos (same.mp free)]
            exact .inr ⟨_, _, rfl, rfl, both.plant _ _⟩
          · rw [if_neg free, if_neg fun other => free (same.mpr other)]
            exact .inl ⟨rfl, rfl⟩

end Alike

end FileTree

end YouMi.Library
