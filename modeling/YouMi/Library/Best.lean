import Mathlib.Data.List.Sort
import Mathlib.Data.List.Nodup
import Mathlib.Data.List.Infix

/-!
# The best entries of a list

The entries of highest score, in the order of their scores.  A part of a list has
the same best entries as the whole, up to ties, when it has enough of those that
no other entry surpasses.
-/

namespace YouMi.Library

variable {α κ : Type*} [LinearOrder κ] (score : α → κ)

def byScore (entries : List α) : List α :=
  entries.insertionSort fun first second => score second ≤ score first

/-- At most `count` entries of highest score, by a stable sort. -/
def best (count : Nat) (entries : List α) : List α := (byScore score entries).take count

/--
Two results of at most `count` entries have the same scores, and the same entries
but for those that tie with the last one kept.
-/
def SameUpToTies (count : Nat) (first second : List α) : Prop :=
  first.map score = second.map score ∧
    ∀ entry, (first.length < count ∨ ∃ kept ∈ first, score kept < score entry) →
      (entry ∈ first ↔ entry ∈ second)

section Sorted

variable {score} {count : Nat} {entries : List α}

theorem byScore_perm : (byScore score entries).Perm entries := List.perm_insertionSort _ _

theorem byScore_pairwise :
    (byScore score entries).Pairwise fun first second => score second ≤ score first := by
  have total : Std.Total fun first second : α => score second ≤ score first :=
    ⟨fun first second => le_total _ _⟩
  have transitive : IsTrans α fun first second => score second ≤ score first :=
    ⟨fun _ _ _ upper lower => le_trans lower upper⟩
  exact List.pairwise_insertionSort _ _

theorem scores_pairwise :
    ((byScore score entries).map score).Pairwise fun first second => second ≤ first :=
  List.pairwise_map.mpr byScore_pairwise

/-- A list of scores in falling order is the only such arrangement of them. -/
theorem eq_of_falling {first second : List κ} (perm : first.Perm second)
    (hfirst : first.Pairwise fun a b => b ≤ a) (hsecond : second.Pairwise fun a b => b ≤ a) :
    first = second :=
  perm.eq_of_pairwise (fun _ _ _ _ upper lower => le_antisymm lower upper) hfirst hsecond

theorem mem_of_mem_best {entry : α} (member : entry ∈ best score count entries) :
    entry ∈ entries :=
  byScore_perm.mem_iff.mp (List.mem_of_mem_take member)

theorem length_best : (best score count entries).length = min count entries.length := by
  rw [best, List.length_take, byScore_perm.length_eq]

/-- Entries in their order are sorted already. -/
theorem best_byScore : best score count (byScore score entries) = best score count entries := by
  have sorted : byScore score (byScore score entries) = byScore score entries :=
    byScore_pairwise.insertionSort_eq
  rw [best, sorted, best]

/-- An entry above a kept one is kept. -/
theorem mem_best_of_above {entry kept : α} (member : entry ∈ entries)
    (isKept : kept ∈ best score count entries) (above : score kept < score entry) :
    entry ∈ best score count entries := by
  by_contra left
  have split : entry ∈ (byScore score entries).take count ++ (byScore score entries).drop count := by
    rw [List.take_append_drop]
    exact byScore_perm.mem_iff.mpr member
  have dropped : entry ∈ (byScore score entries).drop count :=
    (List.mem_append.mp split).resolve_left left
  have sorted : ((byScore score entries).take count ++
      (byScore score entries).drop count).Pairwise
        fun first second => score second ≤ score first := by
    rw [List.take_append_drop]
    exact byScore_pairwise
  have below := (List.pairwise_append.mp sorted).2.2 kept isKept entry dropped
  exact absurd above (not_lt_of_ge below)

theorem mem_best_of_length_lt {entry : α} (member : entry ∈ entries)
    (short : (best score count entries).length < count) : entry ∈ best score count entries := by
  rw [length_best] at short
  unfold best
  rw [List.take_of_length_le (by rw [byScore_perm.length_eq]; omega)]
  exact byScore_perm.mem_iff.mpr member

end Sorted

section Part

variable {score} {count : Nat} {part whole : List α} (nodup : part.Nodup)
  (inside : part ⊆ whole)

include nodup inside

/-- A part without repetitions, together with what it lacks, is the whole. -/
theorem perm_part_append_rest [DecidableEq α] (nodup_whole : whole.Nodup) :
    whole.Perm (part ++ whole.filter (· ∉ part)) := by
  refine (List.perm_ext_iff_of_nodup nodup_whole ?_).mpr fun entry => ?_
  · refine List.nodup_append.mpr ⟨nodup, nodup_whole.filter _, ?_⟩
    rintro entry here other there rfl
    simp [here] at there
  · rw [List.mem_append, List.mem_filter, decide_eq_true_eq]
    constructor
    · intro member
      by_cases here : entry ∈ part
      · exact .inl here
      · exact .inr ⟨member, here⟩
    · rintro (here | ⟨member, _⟩)
      · exact inside here
      · exact member

variable (upper : ∀ entry ∈ part, ∀ other ∈ whole, other ∉ part → score other ≤ score entry)

include upper

/-- The best scores of an upper part are those of the whole, as far as they go. -/
theorem scores_best_of_upper [DecidableEq α] (nodup_whole : whole.Nodup)
    (enough : count ≤ part.length ∨ whole ⊆ part) :
    (best score count part).map score = (best score count whole).map score := by
  have perm := perm_part_append_rest nodup inside nodup_whole
  -- The scores of the whole in order are those of the part, then those of the rest.
  have scores : (byScore score whole).map score =
      (byScore score part).map score ++
        (byScore score (whole.filter (· ∉ part))).map score := by
    refine eq_of_falling ?_ scores_pairwise ?_
    · rw [← List.map_append]
      exact ((byScore_perm.trans perm).trans (byScore_perm.symm.append byScore_perm.symm)).map _
    · refine List.pairwise_append.mpr ⟨scores_pairwise, scores_pairwise, ?_⟩
      intro first hfirst second hsecond
      obtain ⟨entry, here, rfl⟩ := List.mem_map.mp hfirst
      obtain ⟨other, there, rfl⟩ := List.mem_map.mp hsecond
      have outside := List.mem_filter.mp (byScore_perm.mem_iff.mp there)
      exact upper entry (byScore_perm.mem_iff.mp here) other outside.1 (by simpa using outside.2)
  unfold best
  rw [List.map_take, List.map_take, scores]
  rcases enough with many | all
  · rw [List.take_append_of_le_length]
    rwa [List.length_map, byScore_perm.length_eq]
  · have none : whole.filter (· ∉ part) = [] :=
      List.filter_eq_nil_iff.mpr fun entry member => by simpa using all member
    rw [none]
    simp [byScore]

/--
An upper part of a list has the same best entries up to ties exactly if it has `count`
entries or all entries of the whole.
-/
theorem sameUpToTies_best_iff (nodup_whole : whole.Nodup) :
    SameUpToTies score count (best score count part) (best score count whole) ↔
      count ≤ part.length ∨ whole ⊆ part := by
  classical
  constructor
  · rintro ⟨scores, _⟩
    have lengths := congrArg List.length scores
    rw [List.length_map, List.length_map, length_best, length_best] at lengths
    by_contra few
    obtain ⟨short, missing⟩ := not_or.mp few
    have subperm := List.subperm_of_subset nodup inside
    have shorter : part.length ≠ whole.length := fun same =>
      missing (subperm.perm_of_length_le same.ge).symm.subset
    have fewer := subperm.length_le
    omega
  · intro enough
    have scores := scores_best_of_upper nodup inside upper nodup_whole enough
    have lengths := congrArg List.length scores
    rw [List.length_map, List.length_map] at lengths
    refine ⟨scores, fun entry above => ⟨fun member => ?_, fun member => ?_⟩⟩
    · have there := inside (mem_of_mem_best member)
      rcases above with short | ⟨kept, isKept, lower⟩
      · exact mem_best_of_length_lt there (by rw [← lengths]; exact short)
      · have isScore : score kept ∈ (best score count whole).map score := by
          rw [← scores]
          exact List.mem_map_of_mem isKept
        obtain ⟨kept', isKept', same⟩ := List.mem_map.mp isScore
        exact mem_best_of_above there isKept' (by rw [same]; exact lower)
    · have there := mem_of_mem_best member
      rcases above with short | ⟨kept, isKept, lower⟩
      · refine mem_best_of_length_lt ?_ short
        rw [length_best] at short
        rcases enough with many | all
        · omega
        · exact all there
      · refine mem_best_of_above ?_ isKept lower
        by_contra outside
        have below := upper kept (mem_of_mem_best isKept) entry there outside
        exact absurd lower (not_lt_of_ge below)

end Part

/-! ## A part of the entries -/

section Selection

variable {score} {entries : List α} (keep : α → Bool)

theorem filter_orderedInsert {entry : α}
    (sorted : entries.Pairwise fun first second => score second ≤ score first) :
    (entries.orderedInsert (fun first second => score second ≤ score first) entry).filter keep =
      if keep entry then (entries.filter keep).orderedInsert
        (fun first second => score second ≤ score first) entry
      else entries.filter keep := by
  induction entries with
  | nil => cases kept : keep entry <;> simp [kept]
  | cons first rest ih =>
      obtain ⟨above, later⟩ := List.pairwise_cons.mp sorted
      rw [List.orderedInsert_cons]
      by_cases here : score first ≤ score entry
      · rw [if_pos here, List.filter_cons]
        refine if_congr Iff.rfl (Eq.symm ?_) rfl
        -- What is kept of a list that is all below the entry comes after it.
        cases remaining : (first :: rest).filter keep with
        | nil => rfl
        | cons next others =>
            have isMember : next ∈ first :: rest :=
              List.mem_of_mem_filter (remaining ▸ List.mem_cons_self)
            have below : score next ≤ score entry := by
              rcases List.mem_cons.mp isMember with rfl | isLater
              · exact here
              · exact le_trans (above next isLater) here
            rw [List.orderedInsert_cons, if_pos below]
      · rw [if_neg here, List.filter_cons, ih later]
        cases kept : keep entry with
        | false => simp [List.filter_cons]
        | true =>
            cases keptFirst : keep first with
            | false => simp [keptFirst]
            | true => simp [keptFirst, List.orderedInsert_cons, here]

/-- A part of the entries stands in the order in which it stands among all. -/
theorem filter_byScore :
    (byScore score entries).filter keep = byScore score (entries.filter keep) := by
  induction entries with
  | nil => rfl
  | cons entry rest ih =>
      change ((byScore score rest).orderedInsert _ entry).filter keep = _
      rw [filter_orderedInsert keep byScore_pairwise, ih, List.filter_cons]
      split
      · rfl
      · rfl

/-- What is done to the entries without a change to their scores leaves them in their order. -/
theorem map_byScore {β : Type*} {other : β → κ} (f : α → β) (entries : List α)
    (same : ∀ entry, other (f entry) = score entry) :
    (byScore score entries).map f = byScore other (entries.map f) :=
  List.map_insertionSort _ _ f entries fun first _ second _ => by rw [same, same]

end Selection

/-! ## Cut before selected -/

section Cut

variable {own wanted : α → Bool} (count limit : Nat) (entries : List α)

/-- What is selected from the first entries comes first among what is selected from the first of
a part that has all that is wanted. -/
theorem filter_take_prefix
    (inside : ∀ entry ∈ entries, wanted entry = true → own entry = true) :
    (entries.take count).filter wanted <+: ((entries.filter own).take count).filter wanted := by
  have split : (entries.take count).filter wanted =
      ((entries.take count).filter own).filter wanted := by
    rw [List.filter_filter]
    refine List.filter_congr fun entry member => ?_
    cases chosen : wanted entry with
    | true => simp [inside entry (List.mem_of_mem_take member) chosen]
    | false => rfl
  have short : ((entries.take count).filter own).length ≤ count :=
    (List.length_filter_le _ _).trans (List.length_take_le _ _)
  have first : (entries.take count).filter own <+: (entries.filter own).take count := by
    have whole := (List.take_prefix count entries).filter own
    rw [List.prefix_iff_eq_take] at whole ⊢
    rw [List.take_take, min_eq_left short]
    exact whole
  rw [split]
  exact first.filter wanted

/-- Two beginnings of one list begin alike as far as they go. -/
theorem take_eq_take_of_prefix {first second whole : List α} (hfirst : first <+: whole)
    (hsecond : second <+: whole) (same : min limit first.length = min limit second.length) :
    first.take limit = second.take limit := by
  rw [List.prefix_iff_eq_take.mp hfirst, List.prefix_iff_eq_take.mp hsecond, List.take_take,
    List.take_take, same]

/-- Where the first entries name different wanted keys, there are as many of them as can be wanted
exactly if there are enough entries or all wanted keys are named. -/
theorem length_take_eq_min_iff {β ν : Type*} {name : β → ν} {kept : List β} {keys : List ν}
    (distinctKeys : keys.Nodup) (distinct : ((kept.take limit).map name).Nodup)
    (inside : (kept.take limit).map name ⊆ keys) :
    (kept.take limit).length = min limit keys.length ↔
      limit ≤ kept.length ∨ keys ⊆ kept.map name := by
  have few := (List.subperm_of_subset distinct inside).length_le
  rw [List.length_map, List.length_take] at few
  rw [List.length_take]
  by_cases enough : limit ≤ kept.length
  · exact iff_of_true (by omega) (.inl enough)
  · have whole : kept.take limit = kept := List.take_of_length_le (by omega)
    rw [whole] at distinct inside
    rw [or_iff_right enough]
    constructor
    · intro same
      have perm := (List.subperm_of_subset distinct inside).perm_of_length_le
        (by rw [List.length_map]; omega)
      exact perm.symm.subset
    · intro all
      have many := (List.subperm_of_subset distinctKeys all).length_le
      rw [List.length_map] at many
      omega

end Cut

end YouMi.Library
