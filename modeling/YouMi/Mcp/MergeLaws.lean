import YouMi.Mcp.MergePaths

/-!
# The laws of the dictionary merge

The laws a three-way merge is expected to satisfy, stated for `_merge_dicts`,
and the inputs on which it satisfies them.  They hold except where one side
removes a key that the other side left as it was in the base: with ours as that
side the merge stores the marker, with theirs it drops the key.
-/

namespace YouMi.Mcp

open YouMi.Library YouMi.Python YouMi.Python.PyVal

/-- Two places agree: both are empty, or both hold equal values. -/
def SamePlace : Option PyVal → Option PyVal → Prop
  | none, none => True
  | some v, some w => pyEq v w = true
  | _, _ => False

/-- A path is away from another when neither leads to the other. -/
def Away (path other : List String) : Prop := ¬ other <+: path ∧ ¬ path <+: other

/-- What is expected of a three-way merge, with `==` as equality. -/
structure MergeLaws (base ours theirs : Dict) : Prop where
  theirs_is_base :
    pyEq (.dict theirs) (.dict base) = true →
      (mergeDicts base ours theirs).2 = [] ∧
        pyEq (.dict (mergeDicts base ours theirs).1) (.dict ours) = true
  ours_is_base :
    pyEq (.dict ours) (.dict base) = true →
      (mergeDicts base ours theirs).2 = [] ∧
        pyEq (.dict (mergeDicts base ours theirs).1) (.dict theirs) = true
  swap_conflicts : (mergeDicts base theirs ours).2 = (mergeDicts base ours theirs).2
  swap_merged :
    ∀ path,
      (∀ conflict, ConflictAt (.dict base) (.dict ours) (.dict theirs) conflict →
        Away path conflict) →
        SamePlace (lookupAt (.dict (mergeDicts base ours theirs).1) path)
          (lookupAt (.dict (mergeDicts base theirs ours).1) path)
  conflicts_exact :
    ∃ paths : List (List String),
      (mergeDicts base ours theirs).2 = paths.map dotted ∧
        ∀ path, path ∈ paths ↔ ConflictAt (.dict base) (.dict ours) (.dict theirs) path
  conflict_keeps_ours :
    ∀ path, ConflictAt (.dict base) (.dict ours) (.dict theirs) path →
      lookupAt (.dict (mergeDicts base ours theirs).1) path = lookupAt (.dict ours) path
  merge_again :
    (mergeDicts base ours theirs).2 = [] →
      (mergeDicts base (mergeDicts base ours theirs).1 theirs).2 = [] ∧
        pyEq (.dict (mergeDicts base (mergeDicts base ours theirs).1 theirs).1)
          (.dict (mergeDicts base ours theirs).1) = true

/-! ## The merged value key by key -/

theorem getD_unless_sentinel (v : PyVal) :
    (if v.isSentinel then none else some v).getD .sentinel = v := by
  cases v <;> rfl

section Get

variable {base ours theirs : Dict} {key : String}

theorem get_of_agree
    (agree : verdict pyEq (base.get key) (ours.get key) (theirs.get key) = .agree) :
    (mergeDicts base ours theirs).1.get key = ours.get key := by
  rw [Dict.get, lookup_mergeDicts, mergedLookup, agree]
  exact getD_unless_sentinel _

theorem get_of_takeTheirs
    (take : verdict pyEq (base.get key) (ours.get key) (theirs.get key) = .takeTheirs) :
    (mergeDicts base ours theirs).1.get key = theirs.get key := by
  rw [Dict.get, lookup_mergeDicts, mergedLookup, take]
  exact getD_unless_sentinel _

theorem get_of_keepOurs
    (keep : verdict pyEq (base.get key) (ours.get key) (theirs.get key) = .keepOurs) :
    (mergeDicts base ours theirs).1.get key = ours.get key := by
  rw [Dict.get, lookup_mergeDicts, mergedLookup, keep]
  rfl

theorem mergedLookup_of_dicts {b o t : Dict}
    (clash : verdict pyEq (base.get key) (ours.get key) (theirs.get key) = .clash)
    (hb : base.get key = .dict b) (ho : ours.get key = .dict o) (ht : theirs.get key = .dict t) :
    mergedLookup base ours theirs key = some (.dict (mergeDicts b o t).1) := by
  rw [mergedLookup, clash]
  simp only [hb, ho, ht]

/-- Where three values clash, either all are dictionaries or there is a conflict right there. -/
theorem clash_cases
    (clash : verdict pyEq (base.get key) (ours.get key) (theirs.get key) = .clash) :
    (∃ b o t : Dict, base.get key = .dict b ∧ ours.get key = .dict o ∧ theirs.get key = .dict t ∧
      mergedLookup base ours theirs key = some (.dict (mergeDicts b o t).1)) ∨
    (ConflictAt (base.get key) (ours.get key) (theirs.get key) [] ∧
      mergedLookup base ours theirs key = ours.lookup key) := by
  rw [mergedLookup, clash]
  dsimp only
  split
  · rename_i b o t hb ho ht
    exact .inl ⟨b, o, t, hb, ho, ht, rfl⟩
  · rename_i notDicts
    refine .inr ⟨conflictAt_nil.mpr ⟨verdict_eq_clash_iff.mp clash, ?_⟩, rfl⟩
    rintro ⟨db, dO, dt⟩
    obtain ⟨b, hb⟩ := isDict_iff.mp db
    obtain ⟨o, ho⟩ := isDict_iff.mp dO
    obtain ⟨t, ht⟩ := isDict_iff.mp dt
    exact notDicts b o t hb ho ht

theorem get_of_mergedLookup {v : PyVal} (found : mergedLookup base ours theirs key = some v) :
    (mergeDicts base ours theirs).1.get key = v := by
  rw [Dict.get, lookup_mergeDicts, found]
  rfl

end Get

/-! ## Inputs without a one-sided removal -/

/-- Three JSON objects in which no key is removed on one side and left alone on the other. -/
structure CleanSides (base ours theirs : Dict) : Prop where
  base_json : (PyVal.dict base).isJson = true
  ours_json : (PyVal.dict ours).isJson = true
  theirs_json : (PyVal.dict theirs).isJson = true
  clean : ∀ path, ¬ RemovalAt (.dict base) (.dict ours) (.dict theirs) path

namespace CleanSides

variable {base ours theirs : Dict} (sides : CleanSides base ours theirs)

include sides

theorem base_slot (key : String) : IsSlot (base.get key) := .get sides.base_json key

theorem ours_slot (key : String) : IsSlot (ours.get key) := .get sides.ours_json key

theorem theirs_slot (key : String) : IsSlot (theirs.get key) := .get sides.theirs_json key

theorem inner {key : String} {b o t : Dict} (hb : base.get key = .dict b)
    (ho : ours.get key = .dict o) (ht : theirs.get key = .dict t)
    (differ : AllDiffer pyEq (base.get key) (ours.get key) (theirs.get key)) :
    CleanSides b o t where
  base_json := IsSlot.dict (hb ▸ sides.base_slot key)
  ours_json := IsSlot.dict (ho ▸ sides.ours_slot key)
  theirs_json := IsSlot.dict (ht ▸ sides.theirs_slot key)
  clean := by
    intro path removal
    cases path with
    | nil => simp [RemovalAt, At, valueAt, OneSidedRemoval] at removal
    | cons next rest =>
        apply sides.clean (key :: next :: rest)
        rw [removalAt_cons_cons, hb, ho, ht]
        rw [hb, ho, ht] at differ
        exact ⟨⟨⟨rfl, rfl, rfl⟩, differ⟩, removal⟩

theorem not_removed (key : String) :
    ¬ OneSidedRemoval (base.get key) (ours.get key) (theirs.get key) :=
  fun removal => sides.clean [key] (removalAt_singleton.mpr removal)

/-- A value of ours that is kept is there. -/
theorem ours_present {key : String}
    (keep : verdict pyEq (base.get key) (ours.get key) (theirs.get key) = .keepOurs) :
    ours.get key ≠ .sentinel := by
  obtain ⟨_, changed, unchanged⟩ := verdict_eq_keepOurs_iff.mp keep
  intro missing
  refine sides.not_removed key ⟨?_, .inl ⟨missing, unchanged⟩⟩
  intro absent
  rw [missing, absent] at changed
  cases changed

theorem theirs_present {key : String}
    (take : verdict pyEq (base.get key) (ours.get key) (theirs.get key) = .takeTheirs) :
    theirs.get key ≠ .sentinel := by
  obtain ⟨apart, unchanged⟩ := verdict_eq_takeTheirs_iff.mp take
  intro missing
  refine sides.not_removed key ⟨?_, .inr ⟨missing, unchanged⟩⟩
  intro absent
  rw [absent, pyEq_sentinel_left] at unchanged
  rw [missing, unchanged] at apart
  cases apart

theorem swap : CleanSides base theirs ours where
  base_json := sides.base_json
  ours_json := sides.theirs_json
  theirs_json := sides.ours_json
  clean := fun path removal =>
    sides.clean path (removalAt_swap sides.ours_json sides.theirs_json removal)

end CleanSides

/-- Without a one-sided removal the merge makes no marker. -/
theorem isJson_mergeDicts {base ours theirs : Dict} (sides : CleanSides base ours theirs) :
    (PyVal.dict (mergeDicts base ours theirs).1).isJson = true := by
  refine isJson_dict_iff.mpr
    ⟨nodup_keys_mergeDicts (isJson_dict_iff.mp sides.ours_json).1, ?_⟩
  rintro ⟨key, v⟩ member
  change v.isJson = true
  have found := Dict.lookup_eq_some_of_mem
    (nodup_keys_mergeDicts (isJson_dict_iff.mp sides.ours_json).1) member
  have got := Dict.get_of_lookup found
  cases decided : verdict pyEq (base.get key) (ours.get key) (theirs.get key) with
  | agree =>
      rw [get_of_agree decided] at got
      refine got ▸ isJson_of_slot (sides.ours_slot key) fun missing => ?_
      rw [lookup_mergeDicts, mergedLookup, decided] at found
      simp [missing, isSentinel] at found
  | takeTheirs =>
      rw [get_of_takeTheirs decided] at got
      exact got ▸ isJson_of_slot (sides.theirs_slot key) (sides.theirs_present decided)
  | keepOurs =>
      rw [get_of_keepOurs decided] at got
      exact got ▸ isJson_of_slot (sides.ours_slot key) (sides.ours_present decided)
  | clash =>
      rcases clash_cases decided with ⟨b, o, t, hb, ho, ht, merged⟩ | ⟨_, kept⟩
      · have smaller : sizeOf b < sizeOf base := Dict.sizeOf_lt_of_get hb
        rw [get_of_mergedLookup merged] at got
        exact got ▸ isJson_mergeDicts
          (sides.inner hb ho ht (verdict_eq_clash_iff.mp decided))
      · rw [lookup_mergeDicts, kept] at found
        exact (isJson_dict_iff.mp sides.ours_json).2 _ (Dict.mem_of_lookup found)
termination_by sizeOf base

/-! ## The laws one by one -/

theorem conflicts_eq_nil_iff {base ours theirs : Dict} (hb : (PyVal.dict base).isJson = true)
    (ho : (PyVal.dict ours).isJson = true) (ht : (PyVal.dict theirs).isJson = true) :
    (mergeDicts base ours theirs).2 = [] ↔
      ∀ path, ¬ ConflictAt (.dict base) (.dict ours) (.dict theirs) path := by
  rw [conflicts_eq_dotted, List.map_eq_nil_iff, List.eq_nil_iff_forall_not_mem]
  simp only [mem_conflictPaths_iff hb ho ht]

/-- Where two of the dictionaries are equal there is no conflict. -/
theorem no_conflict_of_equal {base ours theirs : Dict}
    (equal : ¬ AllDiffer pyEq (PyVal.dict base) (.dict ours) (.dict theirs)) (path : List String) :
    ¬ ConflictAt (.dict base) (.dict ours) (.dict theirs) path := by
  intro conflict
  cases path with
  | nil => exact (conflictAt_nil.mp conflict).2 ⟨rfl, rfl, rfl⟩
  | cons key rest => exact equal (conflictAt_cons.mp conflict).1

theorem conflictPaths_swap {base ours theirs : Dict} (hb : (PyVal.dict base).isJson = true)
    (ho : (PyVal.dict ours).isJson = true) (ht : (PyVal.dict theirs).isJson = true) :
    conflictPaths base theirs ours = conflictPaths base ours theirs := by
  rw [conflictPaths_eq, conflictPaths_eq, sortedKeys_swap]
  congr 1
  funext key
  unfold keyPaths
  rw [pyEq_sameOn.verdict_swap (.get hb key) (.get ho key) (.get ht key)]
  cases verdict pyEq (base.get key) (ours.get key) (theirs.get key) with
  | clash =>
      dsimp only [Verdict.swap]
      cases eb : base.get key with
      | dict b =>
          cases eo : ours.get key with
          | dict o =>
              cases et : theirs.get key with
              | dict t =>
                  have smaller : sizeOf b < sizeOf base := Dict.sizeOf_lt_of_get eb
                  have inner := conflictPaths_swap (IsSlot.dict (eb ▸ IsSlot.get hb key))
                    (IsSlot.dict (eo ▸ IsSlot.get ho key)) (IsSlot.dict (et ▸ IsSlot.get ht key))
                  simp only [inner]
              | _ => rfl
          | _ => cases theirs.get key <;> rfl
      | _ => rfl
  | _ => rfl
termination_by sizeOf base

theorem merge_theirs_base {base ours theirs : Dict} (sides : CleanSides base ours theirs)
    (same : pyEq (.dict theirs) (.dict base) = true) :
    pyEq (.dict (mergeDicts base ours theirs).1) (.dict ours) = true := by
  rw [pyEq_dict_iff (isJson_mergeDicts sides) sides.ours_json]
  intro key
  have same_key := (pyEq_dict_iff sides.theirs_json sides.base_json).mp same key
  have unchanged := (sides.theirs_slot key).pyEq_symm (sides.base_slot key) same_key
  cases decided : verdict pyEq (base.get key) (ours.get key) (theirs.get key) with
  | agree =>
      rw [get_of_agree decided]
      exact (sides.ours_slot key).pyEq_refl
  | takeTheirs =>
      obtain ⟨apart, kept⟩ := verdict_eq_takeTheirs_iff.mp decided
      have joined := (sides.theirs_slot key).pyEq_trans (sides.base_slot key)
        (sides.ours_slot key) same_key kept
      rw [(sides.theirs_slot key).pyEq_comm (sides.ours_slot key), apart] at joined
      cases joined
  | keepOurs =>
      rw [get_of_keepOurs decided]
      exact (sides.ours_slot key).pyEq_refl
  | clash =>
      have differ := (verdict_eq_clash_iff.mp decided).2.1
      rw [unchanged] at differ
      cases differ

theorem merge_ours_base {base ours theirs : Dict} (sides : CleanSides base ours theirs)
    (same : pyEq (.dict ours) (.dict base) = true) :
    pyEq (.dict (mergeDicts base ours theirs).1) (.dict theirs) = true := by
  rw [pyEq_dict_iff (isJson_mergeDicts sides) sides.theirs_json]
  intro key
  have unchanged := (sides.ours_slot key).pyEq_symm (sides.base_slot key)
    ((pyEq_dict_iff sides.ours_json sides.base_json).mp same key)
  cases decided : verdict pyEq (base.get key) (ours.get key) (theirs.get key) with
  | agree =>
      rw [get_of_agree decided]
      exact verdict_eq_agree_iff.mp decided
  | takeTheirs =>
      rw [get_of_takeTheirs decided]
      exact (sides.theirs_slot key).pyEq_refl
  | keepOurs =>
      have changed := (verdict_eq_keepOurs_iff.mp decided).2.1
      rw [unchanged] at changed
      cases changed
  | clash =>
      have changed := (verdict_eq_clash_iff.mp decided).1
      rw [unchanged] at changed
      cases changed

/-- Equal JSON values hold equal values at every path. -/
theorem samePlace_lookupAt {v w : PyVal} (hv : v.isJson = true) (hw : w.isJson = true)
    (eq : pyEq v w = true) (path : List String) :
    SamePlace (lookupAt v path) (lookupAt w path) := by
  induction path generalizing v w with
  | nil => exact eq
  | cons key rest ih =>
      by_cases isD : v.isDict = true
      · obtain ⟨d, rfl⟩ := isDict_iff.mp isD
        obtain ⟨e, rfl⟩ := pyEq_dict_left eq
        have same := (pyEq_dict_iff hv hw).mp eq key
        by_cases missing : Dict.get d key = .sentinel
        · rw [missing, pyEq_sentinel_left] at same
          rw [lookupAt, lookupAt, (Dict.lookup_eq_none_iff_get hv).mpr missing,
            (Dict.lookup_eq_none_iff_get hw).mpr same]
          trivial
        · have present : Dict.get e key ≠ .sentinel := by
            intro absent
            rw [absent, pyEq_sentinel_right] at same
            exact missing same
          rw [lookupAt, lookupAt, Dict.lookup_eq_some_get hv missing,
            Dict.lookup_eq_some_get hw present]
          exact ih (isJson_of_slot (.get hv key) missing) (isJson_of_slot (.get hw key) present)
            same
      · have other : w.isDict ≠ true := by
          intro isE
          obtain ⟨e, rfl⟩ := isDict_iff.mp isE
          obtain ⟨d, rfl⟩ := pyEq_dict_right eq
          exact isD rfl
        cases v with
        | dict d => exact absurd rfl isD
        | _ =>
            cases w with
            | dict e => exact absurd rfl other
            | _ => trivial

theorem ConflictAt.allDiffer {base ours theirs : PyVal} {path : List String}
    (conflict : ConflictAt base ours theirs path) : AllDiffer pyEq base ours theirs := by
  by_cases top : path = []
  · subst top
    exact conflict.1
  · exact (conflict.2.2 [] List.nil_prefix (Ne.symm top)).2

/-- A conflict below a key is one of the whole dictionaries. -/
theorem ConflictAt.lift {base ours theirs : Dict} (hb : (PyVal.dict base).isJson = true)
    (ho : (PyVal.dict ours).isJson = true) (ht : (PyVal.dict theirs).isJson = true) {key : String}
    {path : List String}
    (conflict : ConflictAt (base.get key) (ours.get key) (theirs.get key) path) :
    ConflictAt (.dict base) (.dict ours) (.dict theirs) (key :: path) :=
  conflictAt_cons.mpr ⟨allDiffer_of_get hb ho ht conflict.allDiffer, conflict⟩

theorem conflict_keeps_ours {base ours theirs : Dict} (hb : (PyVal.dict base).isJson = true)
    (ho : (PyVal.dict ours).isJson = true) (ht : (PyVal.dict theirs).isJson = true)
    {path : List String} (conflict : ConflictAt (.dict base) (.dict ours) (.dict theirs) path) :
    lookupAt (.dict (mergeDicts base ours theirs).1) path = lookupAt (.dict ours) path := by
  induction path generalizing base ours theirs with
  | nil => exact absurd ⟨rfl, rfl, rfl⟩ (conflictAt_nil.mp conflict).2
  | cons key rest ih =>
      have below := (conflictAt_cons.mp conflict).2
      have clash := verdict_eq_clash_iff.mpr below.allDiffer
      rcases clash_cases clash with ⟨b, o, t, eb, eo, et, merged⟩ | ⟨here, kept⟩
      · have found : ours.lookup key = some (.dict o) := by
          rw [← eo]
          exact Dict.lookup_eq_some_get ho (by rw [eo]; simp)
        rw [lookupAt, lookupAt, lookup_mergeDicts, merged, found]
        rw [eb, eo, et] at below
        exact ih (IsSlot.dict (eb ▸ IsSlot.get hb key)) (IsSlot.dict (eo ▸ IsSlot.get ho key))
          (IsSlot.dict (et ▸ IsSlot.get ht key)) below
      · rw [lookupAt, lookupAt, lookup_mergeDicts, kept]

/-! ## Exchanging the sides -/

theorem pyEq_merge_swap {base ours theirs : Dict} (sides : CleanSides base ours theirs)
    (none : ∀ path, ¬ ConflictAt (.dict base) (.dict ours) (.dict theirs) path) :
    pyEq (.dict (mergeDicts base ours theirs).1) (.dict (mergeDicts base theirs ours).1) = true := by
  rw [pyEq_dict_iff (isJson_mergeDicts sides) (isJson_mergeDicts sides.swap)]
  intro key
  have swapped := pyEq_sameOn.verdict_swap (sides.base_slot key) (sides.ours_slot key)
    (sides.theirs_slot key)
  cases decided : verdict pyEq (base.get key) (ours.get key) (theirs.get key) with
  | agree =>
      rw [decided] at swapped
      rw [get_of_agree decided, get_of_agree swapped]
      exact verdict_eq_agree_iff.mp decided
  | takeTheirs =>
      rw [decided] at swapped
      rw [get_of_takeTheirs decided, get_of_keepOurs swapped]
      exact (sides.theirs_slot key).pyEq_refl
  | keepOurs =>
      rw [decided] at swapped
      rw [get_of_keepOurs decided, get_of_takeTheirs swapped]
      exact (sides.ours_slot key).pyEq_refl
  | clash =>
      rw [decided] at swapped
      rcases clash_cases decided with ⟨b, o, t, hb, ho, ht, merged⟩ | ⟨here, _⟩
      · have smaller : sizeOf b < sizeOf base := Dict.sizeOf_lt_of_get hb
        rw [get_of_mergedLookup merged,
          get_of_mergedLookup (mergedLookup_of_dicts swapped hb ht ho)]
        refine pyEq_merge_swap (sides.inner hb ho ht (verdict_eq_clash_iff.mp decided))
          fun path conflict => none (key :: path)
            (.lift sides.base_json sides.ours_json sides.theirs_json ?_)
        rwa [hb, ho, ht]
      · exact absurd (.lift sides.base_json sides.ours_json sides.theirs_json here) (none [key])
termination_by sizeOf base

/-- Away from the conflicts the merge does not depend on which side is which. -/
theorem samePlace_swap {base ours theirs : Dict} (sides : CleanSides base ours theirs)
    {path : List String}
    (away : ∀ conflict, ConflictAt (.dict base) (.dict ours) (.dict theirs) conflict →
      Away path conflict) :
    SamePlace (lookupAt (.dict (mergeDicts base ours theirs).1) path)
      (lookupAt (.dict (mergeDicts base theirs ours).1) path) := by
  induction path generalizing base ours theirs with
  | nil =>
      exact pyEq_merge_swap sides fun conflict there => (away conflict there).2 List.nil_prefix
  | cons key rest ih =>
      have swapped := pyEq_sameOn.verdict_swap (sides.base_slot key) (sides.ours_slot key)
        (sides.theirs_slot key)
      have here : ∀ below, ConflictAt (base.get key) (ours.get key) (theirs.get key) below →
          Away (key :: rest) (key :: below) :=
        fun below conflict =>
          away _ (.lift sides.base_json sides.ours_json sides.theirs_json conflict)
      rw [lookupAt, lookupAt, lookup_mergeDicts, lookup_mergeDicts]
      cases decided : verdict pyEq (base.get key) (ours.get key) (theirs.get key) with
      | agree =>
          rw [decided] at swapped
          have same := verdict_eq_agree_iff.mp decided
          rw [mergedLookup, mergedLookup, decided, swapped]
          by_cases missing : ours.get key = .sentinel
          · rw [missing, pyEq_sentinel_left] at same
            simp [missing, same, isSentinel, Verdict.swap, SamePlace]
          · have present : theirs.get key ≠ .sentinel := by
              intro absent
              rw [absent, pyEq_sentinel_right] at same
              exact missing same
            simp only [Verdict.swap, isSentinel_eq_false missing, isSentinel_eq_false present]
            exact samePlace_lookupAt (isJson_of_slot (sides.ours_slot key) missing)
              (isJson_of_slot (sides.theirs_slot key) present) same rest
      | takeTheirs =>
          rw [decided] at swapped
          have present := sides.theirs_present decided
          rw [mergedLookup, mergedLookup, decided, swapped]
          simp only [Verdict.swap, isSentinel_eq_false present]
          have json := isJson_of_slot (sides.theirs_slot key) present
          exact samePlace_lookupAt json json (sides.theirs_slot key).pyEq_refl rest
      | keepOurs =>
          rw [decided] at swapped
          have present := sides.ours_present decided
          rw [mergedLookup, mergedLookup, decided, swapped]
          simp only [Verdict.swap, isSentinel_eq_false present]
          have json := isJson_of_slot (sides.ours_slot key) present
          exact samePlace_lookupAt json json (sides.ours_slot key).pyEq_refl rest
      | clash =>
          rw [decided] at swapped
          rcases clash_cases decided with ⟨b, o, t, hb, ho, ht, merged⟩ | ⟨conflict, _⟩
          · rw [merged, mergedLookup_of_dicts swapped hb ht ho]
            refine ih (sides.inner hb ho ht (verdict_eq_clash_iff.mp decided)) ?_
            intro below conflict
            obtain ⟨notBelow, notAbove⟩ := here below (by rwa [hb, ho, ht])
            exact ⟨fun leads => notBelow (List.cons_prefix_cons.mpr ⟨rfl, leads⟩),
              fun leads => notAbove (List.cons_prefix_cons.mpr ⟨rfl, leads⟩)⟩
          · exact absurd (List.cons_prefix_cons.mpr ⟨rfl, List.nil_prefix⟩) (here [] conflict).1

/-! ## Merging again -/

/-- Without conflicts a merged value is theirs, or ours over an unchanged base, or a merge. -/
theorem merged_cases {base ours theirs : Dict} (sides : CleanSides base ours theirs)
    (none : ∀ path, ¬ ConflictAt (.dict base) (.dict ours) (.dict theirs) path) (key : String) :
    pyEq ((mergeDicts base ours theirs).1.get key) (theirs.get key) = true ∨
    (pyEq (base.get key) (theirs.get key) = true ∧
      (mergeDicts base ours theirs).1.get key = ours.get key) ∨
    ∃ b o t : Dict, base.get key = .dict b ∧ theirs.get key = .dict t ∧
      (mergeDicts base ours theirs).1.get key = .dict (mergeDicts b o t).1 ∧
      pyEq (.dict b) (.dict t) = false ∧ CleanSides b o t ∧
      ∀ path, ¬ ConflictAt (.dict b) (.dict o) (.dict t) path := by
  cases decided : verdict pyEq (base.get key) (ours.get key) (theirs.get key) with
  | agree =>
      rw [get_of_agree decided]
      exact .inl (verdict_eq_agree_iff.mp decided)
  | takeTheirs =>
      rw [get_of_takeTheirs decided]
      exact .inl (sides.theirs_slot key).pyEq_refl
  | keepOurs =>
      exact .inr (.inl ⟨(verdict_eq_keepOurs_iff.mp decided).2.2, get_of_keepOurs decided⟩)
  | clash =>
      have differ := verdict_eq_clash_iff.mp decided
      rcases clash_cases decided with ⟨b, o, t, hb, ho, ht, merged⟩ | ⟨here, _⟩
      · refine .inr (.inr ⟨b, o, t, hb, ht, get_of_mergedLookup merged, ?_,
          sides.inner hb ho ht differ, ?_⟩)
        · rw [← hb, ← ht]
          exact differ.2.1
        · intro path conflict
          refine none (key :: path)
            (.lift sides.base_json sides.ours_json sides.theirs_json ?_)
          rwa [hb, ho, ht]
      · exact absurd (.lift sides.base_json sides.ours_json sides.theirs_json here) (none [key])

/-- A merge without conflicts does not fall back to the base unless theirs is the base. -/
theorem ne_base_of_ne {base ours theirs : Dict} (sides : CleanSides base ours theirs)
    (none : ∀ path, ¬ ConflictAt (.dict base) (.dict ours) (.dict theirs) path)
    (differ : pyEq (.dict base) (.dict theirs) = false) :
    pyEq (.dict base) (.dict (mergeDicts base ours theirs).1) = false := by
  rw [Bool.eq_false_iff] at differ ⊢
  intro back
  rw [Ne, pyEq_dict_iff sides.base_json sides.theirs_json] at differ
  rw [pyEq_dict_iff sides.base_json (isJson_mergeDicts sides)] at back
  refine differ fun key => ?_
  have back_key := back key
  rcases merged_cases sides none key with took | ⟨kept, _⟩ | ⟨b, o, t, hb, ht, merged, apart, inner, clean⟩
  · exact (sides.base_slot key).pyEq_trans (.get (isJson_mergeDicts sides) key)
      (sides.theirs_slot key) back_key took
  · exact kept
  · have smaller : sizeOf b < sizeOf base := Dict.sizeOf_lt_of_get hb
    rw [merged, hb, ne_base_of_ne inner clean apart] at back_key
    cases back_key
termination_by sizeOf base

theorem OneSidedRemoval.sides_differ {base ours theirs : PyVal}
    (removal : OneSidedRemoval base ours theirs) : pyEq ours theirs = false := by
  obtain ⟨present, ⟨rfl, kept⟩ | ⟨rfl, kept⟩⟩ := removal
  · rw [Bool.eq_false_iff, Ne, pyEq_sentinel_left]
    rintro rfl
    exact present (pyEq_sentinel_right.mp kept)
  · rw [Bool.eq_false_iff, Ne, pyEq_sentinel_right]
    rintro rfl
    exact present (pyEq_sentinel_right.mp kept)

/-- Merging again meets no one-sided removal. -/
theorem CleanSides.merged {base ours theirs : Dict} (sides : CleanSides base ours theirs)
    (none : ∀ path, ¬ ConflictAt (.dict base) (.dict ours) (.dict theirs) path) :
    CleanSides base (mergeDicts base ours theirs).1 theirs where
  base_json := sides.base_json
  ours_json := isJson_mergeDicts sides
  theirs_json := sides.theirs_json
  clean := by
    intro path
    induction path generalizing base ours theirs with
    | nil => simp [RemovalAt, At, valueAt, OneSidedRemoval]
    | cons key rest ih =>
        intro removal
        have cases := merged_cases sides none key
        cases rest with
        | nil =>
            rw [removalAt_singleton] at removal
            rcases cases with took | ⟨_, kept⟩ | ⟨b, o, t, hb, ht, merged, _⟩
            · rw [removal.sides_differ] at took
              cases took
            · rw [kept] at removal
              exact sides.not_removed key removal
            · simp [OneSidedRemoval, ht, merged] at removal
        | cons next rest =>
            obtain ⟨⟨_, differ⟩, below⟩ := removalAt_cons_cons.mp removal
            rcases cases with took | ⟨kept, _⟩ | ⟨b, o, t, hb, ht, merged, _, inner, clean⟩
            · rw [differ.2.2] at took
              cases took
            · rw [differ.2.1] at kept
              cases kept
            · rw [hb, ht, merged] at below
              exact ih inner clean below

theorem no_conflict_merged {base ours theirs : Dict} (sides : CleanSides base ours theirs)
    (none : ∀ path, ¬ ConflictAt (.dict base) (.dict ours) (.dict theirs) path)
    (path : List String) :
    ¬ ConflictAt (.dict base) (.dict (mergeDicts base ours theirs).1) (.dict theirs) path := by
  induction path generalizing base ours theirs with
  | nil => exact fun conflict => (conflictAt_nil.mp conflict).2 ⟨rfl, rfl, rfl⟩
  | cons key rest ih =>
      intro conflict
      have below := (conflictAt_cons.mp conflict).2
      rcases merged_cases sides none key with
        took | ⟨kept, _⟩ | ⟨b, o, t, hb, ht, merged, _, inner, clean⟩
      · rw [below.allDiffer.2.2] at took
        cases took
      · rw [below.allDiffer.2.1] at kept
        cases kept
      · rw [hb, ht, merged] at below
        exact ih inner clean below

theorem merge_again {base ours theirs : Dict} (sides : CleanSides base ours theirs)
    (none : ∀ path, ¬ ConflictAt (.dict base) (.dict ours) (.dict theirs) path) :
    pyEq (.dict (mergeDicts base (mergeDicts base ours theirs).1 theirs).1)
      (.dict (mergeDicts base ours theirs).1) = true := by
  have again := sides.merged none
  rw [pyEq_dict_iff (isJson_mergeDicts again) again.ours_json]
  intro key
  have unchanged := (again.ours_slot key).pyEq_refl
  have cases := merged_cases sides none key
  cases decided : verdict pyEq (base.get key) ((mergeDicts base ours theirs).1.get key)
      (theirs.get key) with
  | agree =>
      rw [get_of_agree decided]
      exact unchanged
  | keepOurs =>
      rw [get_of_keepOurs decided]
      exact unchanged
  | takeTheirs =>
      obtain ⟨apart, back⟩ := verdict_eq_takeTheirs_iff.mp decided
      rcases cases with took | ⟨kept, _⟩ | ⟨b, o, t, hb, ht, merged, differ, inner, clean⟩
      · rw [apart] at took
        cases took
      · have joined := (again.ours_slot key).pyEq_trans (sides.base_slot key)
          (sides.theirs_slot key) ((sides.base_slot key).pyEq_symm (again.ours_slot key) back) kept
        rw [apart] at joined
        cases joined
      · rw [hb, merged, ne_base_of_ne inner clean differ] at back
        cases back
  | clash =>
      have differ := verdict_eq_clash_iff.mp decided
      rcases cases with took | ⟨kept, _⟩ | ⟨b, o, t, hb, ht, merged, _, inner, clean⟩
      · rw [differ.2.2] at took
        cases took
      · rw [differ.2.1] at kept
        cases kept
      · have smaller : sizeOf b < sizeOf base := Dict.sizeOf_lt_of_get hb
        rw [get_of_mergedLookup (mergedLookup_of_dicts decided hb merged ht), merged]
        exact merge_again inner clean
termination_by sizeOf base

/-! ## Where the laws hold -/

/-- Where ours removed a key alone, only one of the two merges holds anything there. -/
theorem lookupAt_removed {base ours theirs : Dict} (hb : (PyVal.dict base).isJson = true)
    (ho : (PyVal.dict ours).isJson = true) (ht : (PyVal.dict theirs).isJson = true)
    {path : List String} (removal : RemovalAt (.dict base) (.dict ours) (.dict theirs) path)
    (missing : valueAt (.dict ours) path = .sentinel) :
    lookupAt (.dict (mergeDicts base ours theirs).1) path = some .sentinel ∧
      lookupAt (.dict (mergeDicts base theirs ours).1) path = none := by
  induction path generalizing base ours theirs with
  | nil => cases missing
  | cons key rest ih =>
      have swapped := pyEq_sameOn.verdict_swap (.get hb key) (.get ho key) (.get ht key)
      simp only [lookupAt, lookup_mergeDicts]
      cases rest with
      | nil =>
          rw [removalAt_singleton] at removal
          have missing : ours.get key = .sentinel := missing
          have apart := removal.sides_differ
          obtain ⟨present, alone⟩ := removal
          have kept : pyEq (base.get key) (theirs.get key) = true := by
            rcases alone with ⟨_, kept⟩ | ⟨_, back⟩
            · exact kept
            · rw [missing, pyEq_sentinel_right] at back
              exact absurd back present
          have keep : verdict pyEq (base.get key) (ours.get key) (theirs.get key) = .keepOurs := by
            refine verdict_eq_keepOurs_iff.mpr ⟨apart, ?_, kept⟩
            rw [missing, Bool.eq_false_iff, Ne, pyEq_sentinel_right]
            exact present
          rw [keep] at swapped
          rw [mergedLookup, mergedLookup, keep, swapped]
          simp [Verdict.swap, missing, isSentinel, lookupAt]
      | cons next rest =>
          obtain ⟨⟨⟨isB, isO, isT⟩, differ⟩, below⟩ := removalAt_cons_cons.mp removal
          obtain ⟨b, eb⟩ := isDict_iff.mp isB
          obtain ⟨o, eo⟩ := isDict_iff.mp isO
          obtain ⟨t, et⟩ := isDict_iff.mp isT
          have clash := verdict_eq_clash_iff.mpr differ
          rw [clash] at swapped
          rw [mergedLookup_of_dicts clash eb eo et, mergedLookup_of_dicts swapped eb et eo]
          rw [eb, eo, et] at below
          refine ih (IsSlot.dict (eb ▸ IsSlot.get hb key)) (IsSlot.dict (eo ▸ IsSlot.get ho key))
            (IsSlot.dict (et ▸ IsSlot.get ht key)) below ?_
          rwa [valueAt, eo] at missing

/-- A one-sided removal is away from every conflict. -/
theorem away_of_removal {base ours theirs : PyVal} {path conflict : List String}
    (top : AllDicts base ours theirs) (removal : RemovalAt base ours theirs path)
    (there : ConflictAt base ours theirs conflict) : Away path conflict := by
  obtain ⟨⟨present, alone⟩, above⟩ := removal
  have apart : path ≠ conflict := by
    rintro rfl
    rcases alone with ⟨_, kept⟩ | ⟨_, kept⟩
    · rw [there.1.2.1] at kept
      cases kept
    · rw [there.1.1] at kept
      cases kept
  constructor
  · intro leads
    by_cases atTop : conflict = []
    · subst atTop
      exact there.2.1 top
    · exact there.2.1 (above conflict leads (Ne.symm apart) atTop).1
  · intro leads
    obtain ⟨_, isO, isT⟩ := (there.2.2 path leads apart).1
    rcases alone with ⟨missing, _⟩ | ⟨missing, _⟩
    · rw [missing] at isO
      cases isO
    · rw [missing] at isT
      cases isT

theorem mergeLaws_of_clean {base ours theirs : Dict} (sides : CleanSides base ours theirs) :
    MergeLaws base ours theirs := by
  have nothing := conflicts_eq_nil_iff sides.base_json sides.ours_json sides.theirs_json
  constructor
  · intro same
    refine ⟨nothing.mpr (no_conflict_of_equal fun differ => ?_), merge_theirs_base sides same⟩
    rw [IsSlot.pyEq_comm (.inl sides.theirs_json) (.inl sides.base_json), differ.2.1] at same
    cases same
  · intro same
    refine ⟨nothing.mpr (no_conflict_of_equal fun differ => ?_), merge_ours_base sides same⟩
    rw [IsSlot.pyEq_comm (.inl sides.ours_json) (.inl sides.base_json), differ.1] at same
    cases same
  · rw [conflicts_eq_dotted, conflicts_eq_dotted,
      conflictPaths_swap sides.base_json sides.ours_json sides.theirs_json]
  · exact fun path away => samePlace_swap sides away
  · exact ⟨_, conflicts_eq_dotted _ _ _,
      mem_conflictPaths_iff sides.base_json sides.ours_json sides.theirs_json⟩
  · exact fun path => conflict_keeps_ours sides.base_json sides.ours_json sides.theirs_json
  · intro quiet
    have none := nothing.mp quiet
    have again := sides.merged none
    exact ⟨(conflicts_eq_nil_iff again.base_json again.ours_json again.theirs_json).mpr
      (no_conflict_merged sides none), merge_again sides none⟩

/-- The merge has all the expected laws exactly where no key is removed on one side only. -/
theorem mergeLaws_iff_no_removal (base ours theirs : JsonObject) :
    MergeLaws base.entries ours.entries theirs.entries ↔
      ∀ path,
        ¬ RemovalAt (.dict base.entries) (.dict ours.entries) (.dict theirs.entries) path := by
  constructor
  · intro laws path removal
    have same := laws.swap_merged path fun _ => away_of_removal ⟨rfl, rfl, rfl⟩ removal
    rcases removal.1.2 with ⟨missing, _⟩ | ⟨missing, _⟩
    · obtain ⟨stored, dropped⟩ := lookupAt_removed base.json ours.json theirs.json removal missing
      rw [stored, dropped] at same
      exact same
    · obtain ⟨stored, dropped⟩ := lookupAt_removed base.json theirs.json ours.json
        (removalAt_swap theirs.json ours.json removal) missing
      rw [stored, dropped] at same
      exact same
  · exact fun clean => mergeLaws_of_clean ⟨base.json, ours.json, theirs.json, clean⟩

/-- Ours removes the only key: theirs is the base, and the merge is not ours. -/
theorem merge_stores_marker : ¬ MergeLaws [("x", .int 1)] [] [("x", .int 1)] := by
  intro laws
  have marker := (laws.theirs_is_base (by decide)).2
  exact absurd marker (by decide +kernel)

end YouMi.Mcp
