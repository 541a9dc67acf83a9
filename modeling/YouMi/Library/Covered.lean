import YouMi.Library.Best

/-!
# The best entries of any part

A part of a list has the same best entries as the whole, up to ties, exactly if enough of its
entries reach the score of each entry that it lacks.
-/

namespace YouMi.Library

variable {α κ : Type*} [LinearOrder κ] {score : α → κ}

/-! ## Falling lists -/

/-- The entries of a falling list that reach a score are its first ones. -/
theorem countP_take_of_falling {entries : List α}
    (falling : entries.Pairwise fun first second => score second ≤ score first) (count : Nat)
    (bound : κ) : (entries.take count).countP (fun entry => bound ≤ score entry) =
      min count (entries.countP fun entry => bound ≤ score entry) := by
  induction entries generalizing count with
  | nil => simp
  | cons first rest ih =>
      obtain ⟨below, falling⟩ := List.pairwise_cons.mp falling
      cases count with
      | zero => simp
      | succ count =>
          rw [List.take_succ_cons, List.countP_cons, List.countP_cons, ih falling]
          by_cases reaches : bound ≤ score first
          · rw [if_pos (decide_eq_true reaches), Nat.add_min_add_right]
          · have none : rest.countP (fun entry => bound ≤ score entry) = 0 := by
              refine List.countP_eq_zero.mpr fun entry member above => reaches ?_
              exact le_trans (of_decide_eq_true above) (below entry member)
            rw [none, if_neg (by simpa using reaches)]
            simp

/-- Falling lists are told apart by how many of their elements reach a bound. -/
theorem eq_of_countP_eq {first second : List κ} (hfirst : first.Pairwise fun a b => b ≤ a)
    (hsecond : second.Pairwise fun a b => b ≤ a)
    (same : ∀ bound, first.countP (bound ≤ ·) = second.countP (bound ≤ ·)) : first = second := by
  induction first generalizing second with
  | nil =>
      cases second with
      | nil => rfl
      | cons top rest => simpa using same top
  | cons top rest ih =>
      cases second with
      | nil => simpa using same top
      | cons top' rest' =>
          obtain ⟨below, hrest⟩ := List.pairwise_cons.mp hfirst
          obtain ⟨below', hrest'⟩ := List.pairwise_cons.mp hsecond
          have reached {bound : κ} {items : List κ} {head : κ}
              (below : ∀ item ∈ items, item ≤ head)
              (some : 0 < (head :: items).countP (bound ≤ ·)) : bound ≤ head := by
            obtain ⟨item, member, above⟩ := List.countP_pos_iff.mp some
            rcases List.mem_cons.mp member with rfl | later
            · exact of_decide_eq_true above
            · exact le_trans (of_decide_eq_true above) (below item later)
          have equal : top = top' := by
            refine le_antisymm (reached below' ?_) (reached below ?_)
            · rw [← same top]
              exact List.countP_pos_iff.mpr ⟨top, List.mem_cons_self, decide_eq_true le_rfl⟩
            · rw [same top']
              exact List.countP_pos_iff.mpr ⟨top', List.mem_cons_self, decide_eq_true le_rfl⟩
          subst equal
          refine congrArg (top :: ·) (ih hrest hrest' fun bound => ?_)
          have both := same bound
          rw [List.countP_cons, List.countP_cons] at both
          omega

theorem countP_best (count : Nat) (entries : List α) (bound : κ) :
    (best score count entries).countP (fun entry => bound ≤ score entry) =
      min count (entries.countP fun entry => bound ≤ score entry) := by
  unfold best
  rw [countP_take_of_falling byScore_pairwise, byScore_perm.countP_eq]

/-! ## Parts -/

variable {count : Nat} {part whole : List α}

/-- Enough entries of the part reach the score of each entry that it lacks. -/
def Covered (score : α → κ) (count : Nat) (part whole : List α) : Prop :=
  ∀ entry ∈ whole, entry ∉ part → count ≤ part.countP fun kept => score entry ≤ score kept

theorem map_score_best_of_covered (nodup : part.Nodup) (inside : part ⊆ whole)
    (nodup_whole : whole.Nodup) (covered : Covered score count part whole) :
    (best score count part).map score = (best score count whole).map score := by
  have falling (entries : List α) : ((best score count entries).map score).Pairwise
      fun a b => b ≤ a := List.pairwise_map.mpr (byScore_pairwise.sublist (List.take_sublist _ _))
  refine eq_of_countP_eq (falling part) (falling whole) fun bound => ?_
  rw [List.countP_map, List.countP_map]
  refine (countP_best count part bound).trans (Eq.trans ?_ (countP_best count whole bound).symm)
  by_cases all : ∀ entry ∈ whole, bound ≤ score entry → entry ∈ part
  · congr 1
    rw [List.countP_eq_length_filter, List.countP_eq_length_filter]
    refine List.Perm.length_eq ((List.perm_ext_iff_of_nodup (nodup.filter _)
      (nodup_whole.filter _)).mpr fun entry => ?_)
    rw [List.mem_filter, List.mem_filter]
    exact ⟨fun ⟨here, above⟩ => ⟨inside here, above⟩,
      fun ⟨there, above⟩ => ⟨all entry there (of_decide_eq_true above), above⟩⟩
  · rw [not_forall] at all
    obtain ⟨entry, lacks⟩ := all
    rw [Classical.not_imp, Classical.not_imp] at lacks
    obtain ⟨there, high, missing⟩ := lacks
    have reached : count ≤ part.countP fun kept => bound ≤ score kept :=
      le_trans (covered entry there missing) (List.countP_mono_left fun kept _ above =>
        decide_eq_true (le_trans high (of_decide_eq_true above)))
    have more : part.countP (fun kept => bound ≤ score kept) ≤
        whole.countP fun kept => bound ≤ score kept :=
      (List.subperm_of_subset nodup inside).countP_le _
    omega

/-- A part has the best entries of the whole up to ties exactly if it covers what it lacks. -/
theorem sameUpToTies_best_iff_covered (nodup : part.Nodup) (inside : part ⊆ whole)
    (nodup_whole : whole.Nodup) :
    SameUpToTies score count (best score count part) (best score count whole) ↔
      Covered score count part whole := by
  constructor
  · rintro ⟨scores, -⟩ entry there missing
    have counts := congrArg (List.countP (score entry ≤ ·)) scores
    rw [List.countP_map, List.countP_map] at counts
    have same := ((countP_best count part (score entry)).symm.trans counts).trans
      (countP_best count whole (score entry))
    have more : part.countP (fun kept => score entry ≤ score kept) <
        whole.countP fun kept => score entry ≤ score kept := by
      have within := List.subperm_of_subset (nodup.filter fun kept => score entry ≤ score kept)
        fun kept member => List.mem_filter.mpr
          ((List.mem_filter.mp member).imp_left fun here => inside here)
      rw [List.countP_eq_length_filter, List.countP_eq_length_filter]
      refine lt_of_le_of_ne within.length_le fun equal => missing ?_
      have perm := within.perm_of_length_le equal.ge
      exact List.mem_of_mem_filter (perm.symm.subset
        (List.mem_filter.mpr ⟨there, decide_eq_true le_rfl⟩))
    omega
  · intro covered
    have scores := map_score_best_of_covered nodup inside nodup_whole covered
    have lengths := congrArg List.length scores
    rw [List.length_map, List.length_map] at lengths
    refine ⟨scores, fun entry above => ⟨fun member => ?_, fun member => ?_⟩⟩
    · have there := inside (mem_of_mem_best member)
      rcases above with short | ⟨kept, isKept, lower⟩
      · exact mem_best_of_length_lt there (lengths ▸ short)
      · have isScore : score kept ∈ (best score count whole).map score :=
          scores ▸ List.mem_map_of_mem isKept
        obtain ⟨kept', isKept', same⟩ := List.mem_map.mp isScore
        exact mem_best_of_above there isKept' (same ▸ lower)
    · have here : entry ∈ part := by
        by_contra missing
        have enough := covered entry (mem_of_mem_best member) missing
        have all : (best score count part).countP (fun kept => score entry ≤ score kept) = count :=
          (countP_best count part (score entry)).trans (Nat.min_eq_left enough)
        have length := List.countP_le_length (p := fun kept => decide (score entry ≤ score kept))
          (l := best score count part)
        have full : (best score count part).length ≤ count := List.length_take_le _ _
        rcases above with short | ⟨kept, isKept, lower⟩
        · omega
        · have reaches := List.countP_eq_length.mp (all.trans (by omega)) kept isKept
          exact absurd (of_decide_eq_true reaches) (not_le_of_gt lower)
      rcases above with short | ⟨kept, isKept, lower⟩
      · exact mem_best_of_length_lt here short
      · exact mem_best_of_above here isKept lower

/-- Results that are both the best entries of one list are the same up to ties. -/
theorem SameUpToTies.of_common {first second common : List α}
    (hfirst : SameUpToTies score count first common)
    (hsecond : SameUpToTies score count second common) :
    SameUpToTies score count first second := by
  have scores := hfirst.1.trans hsecond.1.symm
  refine ⟨scores, fun entry above => (hfirst.2 entry above).trans (hsecond.2 entry ?_).symm⟩
  refine above.imp (fun short => ?_) fun ⟨kept, isKept, lower⟩ => ?_
  · have lengths := congrArg List.length scores
    rw [List.length_map, List.length_map] at lengths
    exact lengths ▸ short
  · obtain ⟨kept', isKept', same⟩ := List.mem_map.mp (scores ▸ List.mem_map_of_mem isKept)
    exact ⟨kept', isKept', same ▸ lower⟩

/-! ## Sorted before selected -/

/-- What is taken from a list in order, and then selected by a test that higher scores pass,
is the best of what passes. -/
theorem filter_best {keep : α → Bool} {entries : List α}
    (upward : ∀ first ∈ entries, ∀ second ∈ entries, score first ≤ score second →
      keep first = true → keep second = true) (count : Nat) :
    (best score count entries).filter keep = best score count (entries.filter keep) := by
  have general (items : List α)
      (falling : items.Pairwise fun first second => score second ≤ score first)
      (part : items ⊆ entries) (count : Nat) :
      (items.take count).filter keep = (items.filter keep).take count := by
    induction items generalizing count with
    | nil => simp
    | cons first rest ih =>
        obtain ⟨below, falling⟩ := List.pairwise_cons.mp falling
        have rest_part : rest ⊆ entries := fun entry member =>
          part (List.mem_cons_of_mem first member)
        cases count with
        | zero => simp
        | succ count =>
            rw [List.take_succ_cons]
            cases kept : keep first with
            | true =>
                rw [List.filter_cons_of_pos kept, List.filter_cons_of_pos kept,
                  List.take_succ_cons, ih falling rest_part]
            | false =>
                have none : rest.filter keep = [] := by
                  refine List.filter_eq_nil_iff.mpr fun entry member passes => ?_
                  have up := upward entry (rest_part member) first
                    (part List.mem_cons_self) (below entry member) passes
                  rw [kept] at up
                  cases up
                rw [List.filter_cons_of_neg (by simp [kept]),
                  List.filter_cons_of_neg (by simp [kept]), ih falling rest_part, none,
                  List.take_nil, List.take_nil]
  unfold best
  rw [general _ byScore_pairwise byScore_perm.subset, filter_byScore]

/-- The first entries of a falling list are its best. -/
theorem take_eq_best {entries : List α}
    (falling : entries.Pairwise fun first second => score second ≤ score first) (count : Nat) :
    entries.take count = best score count entries := by
  unfold best byScore
  rw [falling.insertionSort_eq]

/-! ## Wanted entries -/

section Wanted

variable {entry : α} {rest entries found wanted arranged : List α}

/-- Enough entries are above each one that is not wanted. -/
def Outscored (score : α → κ) (count : Nat) (wanted found : List α) : Prop :=
  ∀ entry ∈ found, entry ∉ wanted → count ≤ found.countP fun other => score entry < score other

/-- The first of some entries comes right after those above it. -/
theorem mem_best_cons (few : rest.countP (fun other => score entry < score other) < count) :
    entry ∈ best score count (entry :: rest) := by
  have sorted : byScore score (entry :: rest) =
      (byScore score rest).takeWhile (fun other => ¬score other ≤ score entry) ++
        entry :: (byScore score rest).dropWhile fun other => ¬score other ≤ score entry :=
    List.orderedInsert_eq_take_drop _ _ _
  have short : ((byScore score rest).takeWhile fun other => ¬score other ≤ score entry).length ≤
      rest.countP fun other => score entry < score other := by
    have same : (byScore score rest).countP (fun other => score entry < score other) =
        rest.countP fun other => score entry < score other := byScore_perm.countP_eq _
    rw [← same, List.countP_eq_length_filter]
    have above : ((byScore score rest).takeWhile fun other => ¬score other ≤ score entry).filter
        (fun other => score entry < score other) =
          (byScore score rest).takeWhile fun other => ¬score other ≤ score entry :=
      List.filter_eq_self.mpr fun other member => by
        simpa using List.all_eq_true.mp List.all_takeWhile other member
    rw [← above]
    exact ((List.takeWhile_sublist _).filter _).length_le
  unfold best
  rw [sorted, List.take_append]
  refine List.mem_append_right _ ?_
  obtain ⟨more, positive⟩ : ∃ more, count - ((byScore score rest).takeWhile
      fun other => ¬score other ≤ score entry).length = more + 1 :=
    Nat.exists_eq_succ_of_ne_zero (by omega)
  rw [positive, List.take_succ_cons]
  exact List.mem_cons_self

/-- An entry with enough others above it is not among the best. -/
theorem not_mem_best (many : count ≤ entries.countP fun other => score entry < score other) :
    entry ∉ best score count entries := by
  intro member
  have sorted : ((byScore score entries).take count ++ (byScore score entries).drop count).Pairwise
      fun first second => score second ≤ score first := by
    rw [List.take_append_drop]
    exact byScore_pairwise
  have below : ((byScore score entries).drop count).countP
      (fun other => score entry < score other) = 0 := by
    refine List.countP_eq_zero.mpr fun other dropped => ?_
    have lower := (List.pairwise_append.mp sorted).2.2 entry member other dropped
    simpa using lower
  have split : (byScore score entries).countP (fun other => score entry < score other) =
      entries.countP fun other => score entry < score other := byScore_perm.countP_eq _
  rw [← List.take_append_drop count (byScore score entries), List.countP_append, below] at split
  have fewer : ((byScore score entries).take count).countP
      (fun other => score entry < score other) < ((byScore score entries).take count).length := by
    refine lt_of_le_of_ne List.countP_le_length fun same => ?_
    have above := List.countP_eq_length.mp same entry member
    simp at above
  have short := List.length_take_le count (byScore score entries)
  omega

/-- Where the best are all kept, the others can be left out. -/
theorem best_eq_best_filter (keep : α → Bool)
    (all : ∀ entry ∈ best score count entries, keep entry = true) :
    best score count entries = best score count (entries.filter keep) := by
  have take (sorted : List α) (count : Nat)
      (all : ∀ entry ∈ sorted.take count, keep entry = true) :
      sorted.take count = (sorted.filter keep).take count := by
    induction sorted generalizing count with
    | nil => rfl
    | cons first rest ih =>
        cases count with
        | zero => rfl
        | succ count =>
            rw [List.take_succ_cons] at all ⊢
            rw [List.filter_cons_of_pos (all first List.mem_cons_self), List.take_succ_cons,
              ih _ fun entry member => all entry (List.mem_cons_of_mem _ member)]
  unfold best at all ⊢
  rw [take _ _ all, filter_byScore]

variable [DecidablePred fun entry => entry ∈ wanted] (distinct : found.Nodup)
  (distinctWanted : wanted.Nodup)

/-- The best of what is found are the best of what is wanted, in any arrangement of it. -/
theorem best_of_outscored (outscored : Outscored score count wanted found)
    (arrangement : arranged.Perm found) :
    best score count arranged =
      best score count (arranged.filter fun entry => entry ∈ wanted) := by
  refine best_eq_best_filter _ fun entry member => decide_eq_true ?_
  by_contra unwanted
  have many := outscored entry (arrangement.mem_iff.mp (mem_of_mem_best member)) unwanted
  rw [← arrangement.countP_eq] at many
  exact not_mem_best many member

include distinct distinctWanted

theorem sameUpToTies_best_wanted_iff (arrangement : arranged.Perm found) :
    SameUpToTies score count (best score count (arranged.filter fun entry => entry ∈ wanted))
        (best score count wanted) ↔
      Covered score count (found.filter fun entry => entry ∈ wanted) wanted := by
  have part := arrangement.filter fun entry => entry ∈ wanted
  rw [sameUpToTies_best_iff_covered (part.nodup_iff.mpr (distinct.filter _))
    (fun entry member => of_decide_eq_true (List.mem_filter.mp member).2) distinctWanted]
  unfold Covered
  refine forall_congr' fun entry => imp_congr Iff.rfl ?_
  rw [part.mem_iff, part.countP_eq]

end Wanted

end YouMi.Library
