import Mathlib.Data.List.Basic
import Mathlib.Data.List.Infix

/-!
# Regular expressions with captures

What a backtracking matcher finds, in the order in which it tries.  Alternatives are
tried from the left, and a repetition of one class of characters takes as many as it
can, or as few if it is lazy.  The outcomes of a pattern are compared with what it
reads when the order is left out.
-/

namespace YouMi.Library

variable {α : Type*}

inductive Pattern (α : Type*) where
  | empty
  | char (accepts : α → Bool)
  | seq (first second : Pattern α)
  | alt (first second : Pattern α)
  | many (isLazy : Bool) (accepts : α → Bool)
  | group (number : Nat) (body : Pattern α)

/-- The text of every group that took part, under its number. -/
abbrev Captures (α : Type*) := List (Nat × List α)

namespace Pattern

/-- What may follow a repetition, from the longest to the shortest. -/
def ends (accepts : α → Bool) : List α → List (List α)
  | [] => [[]]
  | c :: text => (c :: text) :: if accepts c then ends accepts text else []

/-- The ways to match at the beginning of the text, with what follows the match. -/
def outcomes : Pattern α → List α → List (Captures α × List α)
  | empty, text => [([], text)]
  | char accepts, text =>
      match text with
      | [] => []
      | c :: rest => if accepts c then [([], rest)] else []
  | seq first second, text =>
      (first.outcomes text).flatMap fun before =>
        (second.outcomes before.2).map fun after => (before.1 ++ after.1, after.2)
  | alt first second, text => first.outcomes text ++ second.outcomes text
  | many isLazy accepts, text =>
      (if isLazy then ends accepts text else (ends accepts text).reverse).map fun rest =>
        ([], rest)
  | group number body, text =>
      (body.outcomes text).map fun after =>
        (after.1 ++ [(number, text.take (text.length - after.2.length))], after.2)

/-- The pattern can read the text with these captures. -/
def Reads : Pattern α → List α → Captures α → Prop
  | empty, read, groups => read = [] ∧ groups = []
  | char accepts, read, groups => ∃ c, accepts c = true ∧ read = [c] ∧ groups = []
  | seq first second, read, groups =>
      ∃ left right before after, read = left ++ right ∧ groups = before ++ after ∧
        first.Reads left before ∧ second.Reads right after
  | alt first second, read, groups => first.Reads read groups ∨ second.Reads read groups
  | many _ accepts, read, groups => (∀ c ∈ read, accepts c = true) ∧ groups = []
  | group number body, read, groups =>
      ∃ inner, groups = inner ++ [(number, read)] ∧ body.Reads read inner

/-! ## Outcomes are readings -/

theorem mem_ends_iff {accepts : α → Bool} {text rest : List α} :
    rest ∈ ends accepts text ↔
      ∃ read, text = read ++ rest ∧ ∀ c ∈ read, accepts c = true := by
  induction text with
  | nil =>
      rw [ends, List.mem_singleton]
      constructor
      · rintro rfl
        exact ⟨[], rfl, fun c member => absurd member List.not_mem_nil⟩
      · rintro ⟨read, whole, _⟩
        exact (List.append_eq_nil_iff.mp whole.symm).2
  | cons c text ih =>
      rw [ends, List.mem_cons]
      constructor
      · rintro (rfl | later)
        · exact ⟨[], rfl, fun c member => absurd member List.not_mem_nil⟩
        · split at later
          · rename_i accepted
            obtain ⟨read, whole, all⟩ := ih.mp later
            refine ⟨c :: read, congrArg (c :: ·) whole, fun d member => ?_⟩
            rcases List.mem_cons.mp member with rfl | member
            · exact accepted
            · exact all d member
          · exact absurd later List.not_mem_nil
      · rintro ⟨read, whole, all⟩
        cases read with
        | nil => exact .inl whole.symm
        | cons d read =>
            obtain ⟨rfl, later⟩ := List.cons.inj whole
            rw [if_pos (all c List.mem_cons_self)]
            exact .inr (ih.mpr ⟨read, later, fun d member =>
              all d (List.mem_cons_of_mem c member)⟩)

theorem mem_outcomes_char_iff {accepts : α → Bool} {text rest : List α}
    {groups : Captures α} :
    (groups, rest) ∈ (char accepts).outcomes text ↔
      ∃ read, text = read ++ rest ∧ (char accepts).Reads read groups := by
  cases text with
  | nil =>
      refine ⟨fun member => absurd member List.not_mem_nil, ?_⟩
      rintro ⟨_, whole, c, _, rfl, _⟩
      cases whole
  | cons c text =>
      rw [outcomes]
      constructor
      · intro member
        split at member
        · rename_i accepted
          cases List.mem_singleton.mp member
          exact ⟨[c], rfl, c, accepted, rfl, rfl⟩
        · exact absurd member List.not_mem_nil
      · rintro ⟨_, whole, d, accepted, rfl, rfl⟩
        obtain ⟨rfl, rfl⟩ := List.cons.inj whole
        rw [if_pos accepted]
        exact List.mem_singleton_self _

theorem mem_outcomes_many_iff {isLazy : Bool} {accepts : α → Bool} {text rest : List α}
    {groups : Captures α} :
    (groups, rest) ∈ (many isLazy accepts).outcomes text ↔
      ∃ read, text = read ++ rest ∧ (many isLazy accepts).Reads read groups := by
  have member : rest ∈ (if isLazy then ends accepts text else (ends accepts text).reverse) ↔
      rest ∈ ends accepts text := by
    split
    · rfl
    · exact List.mem_reverse
  rw [outcomes, List.mem_map]
  constructor
  · rintro ⟨_, ended, same⟩
    cases same
    obtain ⟨read, whole, all⟩ := mem_ends_iff.mp (member.mp ended)
    exact ⟨read, whole, all, rfl⟩
  · rintro ⟨read, whole, all, rfl⟩
    exact ⟨rest, member.mpr (mem_ends_iff.mpr ⟨read, whole, all⟩), rfl⟩

/-- The outcomes at the beginning of a text are the readings of its beginnings. -/
theorem mem_outcomes_iff {p : Pattern α} {text rest : List α} {groups : Captures α} :
    (groups, rest) ∈ p.outcomes text ↔ ∃ read, text = read ++ rest ∧ p.Reads read groups := by
  induction p generalizing text rest groups with
  | empty =>
      rw [outcomes, List.mem_singleton, Prod.mk.injEq]
      constructor
      · rintro ⟨rfl, rfl⟩
        exact ⟨[], rfl, rfl, rfl⟩
      · rintro ⟨_, rfl, rfl, rfl⟩
        exact ⟨rfl, rfl⟩
  | char accepts => exact mem_outcomes_char_iff
  | seq first second left right =>
      rw [outcomes, List.mem_flatMap]
      constructor
      · rintro ⟨⟨before, middle⟩, one, member⟩
        obtain ⟨⟨after, rest⟩, two, same⟩ := List.mem_map.mp member
        cases same
        obtain ⟨read, rfl, reads⟩ := left.mp one
        obtain ⟨later, rfl, follows⟩ := right.mp two
        exact ⟨read ++ later, (List.append_assoc ..).symm, read, later, before, after, rfl, rfl,
          reads, follows⟩
      · rintro ⟨_, rfl, read, later, before, after, rfl, rfl, reads, follows⟩
        refine ⟨(before, later ++ rest), ?_, ?_⟩
        · exact left.mpr ⟨read, List.append_assoc .., reads⟩
        · exact List.mem_map.mpr ⟨(after, rest), right.mpr ⟨later, rfl, follows⟩, rfl⟩
  | alt first second left right =>
      rw [outcomes, List.mem_append, left, right, ← exists_or]
      exact exists_congr fun read => and_or_left.symm
  | many isLazy accepts => exact mem_outcomes_many_iff
  | group number body ih =>
      have taken (read rest : List α) :
          (read ++ rest).take ((read ++ rest).length - rest.length) = read := by
        rw [List.length_append, Nat.add_sub_cancel, List.take_left]
      rw [outcomes, List.mem_map]
      constructor
      · rintro ⟨⟨inner, rest⟩, outcome, same⟩
        cases same
        obtain ⟨read, rfl, reads⟩ := ih.mp outcome
        exact ⟨read, rfl, inner, by rw [taken], reads⟩
      · rintro ⟨read, rfl, inner, rfl, reads⟩
        exact ⟨(inner, rest), ih.mpr ⟨read, rfl, reads⟩, by rw [taken]⟩

/-! ## Patterns without groups -/

def isPlain : Pattern α → Bool
  | empty => true
  | char _ => true
  | seq first second => first.isPlain && second.isPlain
  | alt first second => first.isPlain && second.isPlain
  | many _ _ => true
  | group _ _ => false

theorem groups_of_isPlain {p : Pattern α} (plain : p.isPlain = true) {read : List α}
    {groups : Captures α} (reads : p.Reads read groups) : groups = [] := by
  induction p generalizing read groups with
  | empty => exact reads.2
  | char accepts =>
      obtain ⟨_, _, _, none⟩ := reads
      exact none
  | seq first second left right =>
      obtain ⟨one, two⟩ := Bool.and_eq_true_iff.mp plain
      obtain ⟨_, _, _, _, _, rfl, before, after⟩ := reads
      rw [left one before, right two after]
      rfl
  | alt first second left right =>
      obtain ⟨one, two⟩ := Bool.and_eq_true_iff.mp plain
      rcases reads with reads | reads
      · exact left one reads
      · exact right two reads
  | many isLazy accepts => exact reads.2
  | group number body ih => cases plain

/-! ## Combinations -/

/-- The patterns one after another. -/
def sequence : List (Pattern α) → Pattern α
  | [] => empty
  | first :: later => seq first (sequence later)

def literal [DecidableEq α] (word : List α) : Pattern α :=
  sequence (word.map fun c => char fun d => d = c)

/-- The pattern, or nothing. -/
def optional (p : Pattern α) : Pattern α := alt p empty

/-- The first of the patterns that leads to a match. -/
def choice : List (Pattern α) → Pattern α
  | [] => empty
  | [last] => last
  | first :: later => alt first (choice later)

theorem reads_literal_iff [DecidableEq α] {word read : List α} {groups : Captures α} :
    (literal word).Reads read groups ↔ read = word ∧ groups = [] := by
  induction word generalizing read groups with
  | nil => exact Iff.rfl
  | cons c word ih =>
      constructor
      · rintro ⟨_, right, _, after, rfl, rfl, ⟨d, same, rfl, rfl⟩, later⟩
        obtain ⟨rfl, rfl⟩ := ih.mp later
        rw [of_decide_eq_true same]
        exact ⟨rfl, rfl⟩
      · rintro ⟨rfl, rfl⟩
        exact ⟨[c], word, [], [], rfl, rfl, ⟨c, decide_eq_true rfl, rfl, rfl⟩,
          ih.mpr ⟨rfl, rfl⟩⟩

theorem reads_choice_iff {patterns : List (Pattern α)} (nonempty : patterns ≠ []) {read : List α}
    {groups : Captures α} :
    (choice patterns).Reads read groups ↔ ∃ p ∈ patterns, p.Reads read groups := by
  induction patterns with
  | nil => exact absurd rfl nonempty
  | cons first later ih =>
      cases later with
      | nil => simp [choice]
      | cons second later =>
          rw [List.exists_mem_cons_iff, ← ih (List.cons_ne_nil _ _)]
          exact Iff.rfl

/-- Whether the pattern matches somewhere in the text. -/
def search (p : Pattern α) (text : List α) : Bool :=
  text.tails.any fun rest => !(p.outcomes rest).isEmpty

theorem search_iff {p : Pattern α} {text : List α} :
    p.search text = true ↔ ∃ read groups, read <:+: text ∧ p.Reads read groups := by
  unfold search
  rw [List.any_eq_true]
  constructor
  · rintro ⟨rest, within, found⟩
    rw [Bool.not_eq_true', List.isEmpty_eq_false_iff_exists_mem] at found
    obtain ⟨⟨groups, after⟩, outcome⟩ := found
    obtain ⟨read, rfl, reads⟩ := mem_outcomes_iff.mp outcome
    obtain ⟨before, rfl⟩ := (List.mem_tails _ _).mp within
    exact ⟨read, groups, ⟨before, after, List.append_assoc ..⟩, reads⟩
  · rintro ⟨read, groups, ⟨before, after, rfl⟩, reads⟩
    refine ⟨read ++ after, (List.mem_tails _ _).mpr ⟨before, (List.append_assoc ..).symm⟩, ?_⟩
    rw [Bool.not_eq_true', List.isEmpty_eq_false_iff_exists_mem]
    exact ⟨(groups, after), mem_outcomes_iff.mpr ⟨read, rfl, reads⟩⟩

/-! ## All matches in a text -/

/-- One match: the text before it, what it read, and its groups. -/
structure Match (α : Type*) where
  before : List α
  read : List α
  groups : Captures α

def Match.group (m : Match α) (number : Nat) : Option (List α) := m.groups.lookup number

/-- The first outcome that reads something. -/
def matchAt (p : Pattern α) (before text : List α) : Option (Match α) :=
  ((p.outcomes text).find? fun outcome => outcome.2.length < text.length).map fun outcome =>
    { before, read := text.take (text.length - outcome.2.length), groups := outcome.1 }

/--
The matches after the text `before`, from left to right; `skip` characters still belong
to the last one.  Matches that read nothing are left out.
-/
def scan (p : Pattern α) : (skip : Nat) → (before text : List α) → List (Match α)
  | _, _, [] => []
  | skip + 1, before, c :: text => p.scan skip (before ++ [c]) text
  | 0, before, c :: text =>
      match p.matchAt before (c :: text) with
      | none => p.scan 0 (before ++ [c]) text
      | some m => m :: p.scan (m.read.length - 1) (before ++ [c]) text

def finditer (p : Pattern α) (text : List α) : List (Match α) := p.scan 0 [] text

theorem reads_of_matchAt {p : Pattern α} {before text : List α} {m : Match α}
    (matched : p.matchAt before text = some m) :
    m.before = before ∧ m.read <+: text ∧ p.Reads m.read m.groups := by
  obtain ⟨⟨groups, rest⟩, found, same⟩ := Option.map_eq_some_iff.mp matched
  obtain ⟨read, rfl, reads⟩ := mem_outcomes_iff.mp (List.mem_of_find?_eq_some found)
  cases same
  dsimp only
  rw [List.length_append, Nat.add_sub_cancel, List.take_left]
  exact ⟨rfl, List.prefix_append _ _, reads⟩

theorem reads_of_mem_scan {p : Pattern α} {skip : Nat} {before text : List α} {m : Match α}
    (member : m ∈ p.scan skip before text) :
    m.before ++ m.read <+: before ++ text ∧ p.Reads m.read m.groups := by
  induction text generalizing skip before with
  | nil => cases skip <;> exact absurd member List.not_mem_nil
  | cons c text ih =>
      have shifted : before ++ c :: text = before ++ [c] ++ text := by simp
      cases skip with
      | succ skip =>
          rw [shifted]
          exact ih member
      | zero =>
          rw [scan] at member
          split at member
          · rw [shifted]
            exact ih member
          · rename_i found matched
            rcases List.mem_cons.mp member with rfl | later
            · obtain ⟨same, inside, reads⟩ := reads_of_matchAt matched
              rw [same]
              exact ⟨(List.prefix_append_right_inj before).mpr inside, reads⟩
            · rw [shifted]
              exact ih later

/-- Every match stands in the text and is a reading of the pattern. -/
theorem reads_of_mem_finditer {p : Pattern α} {text : List α} {m : Match α}
    (member : m ∈ p.finditer text) :
    m.before ++ m.read <+: text ∧ p.Reads m.read m.groups :=
  reads_of_mem_scan member

end Pattern

end YouMi.Library
