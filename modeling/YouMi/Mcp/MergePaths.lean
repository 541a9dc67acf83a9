import YouMi.Mcp.DictMerge

/-!
# Key paths in merged dictionaries

Values, conflicts and removals are addressed by key paths from the top of a
dictionary.  The conflicts `_merge_dicts` reports are the paths at which all
three values differ and are not all dictionaries, below dictionaries that differ.
-/

namespace YouMi.Mcp

open YouMi.Library YouMi.Python YouMi.Python.PyVal

theorem pyEq_sameOn : SameOn pyEq IsSlot where
  symm := IsSlot.pyEq_symm
  trans := IsSlot.pyEq_trans

/-! ## Key paths -/

/-- The value at a key path; where there is none, the marker. -/
def valueAt : PyVal → List String → PyVal
  | v, [] => v
  | .dict d, key :: rest => valueAt (Dict.get d key) rest
  | _, _ :: _ => .sentinel

/-- What a value really holds at a key path, a stored marker included. -/
def lookupAt : PyVal → List String → Option PyVal
  | v, [] => some v
  | .dict d, key :: rest => (List.lookup key d).bind fun v => lookupAt v rest
  | _, _ :: _ => none

/-- The text `_merge_dicts` reports for a key path. -/
def dotted (path : List String) : String := ".".intercalate path

def AllDicts (base ours theirs : PyVal) : Prop :=
  base.isDict = true ∧ ours.isDict = true ∧ theirs.isDict = true

/-- The relation holds between the three values at a key path. -/
def At (Rel : PyVal → PyVal → PyVal → Prop) (base ours theirs : PyVal) (path : List String) : Prop :=
  Rel (valueAt base path) (valueAt ours path) (valueAt theirs path)

/-- All three differ at the path and are not all objects, but objects that differ above it. -/
def ConflictAt (base ours theirs : PyVal) (path : List String) : Prop :=
  At (AllDiffer pyEq) base ours theirs path ∧ ¬ At AllDicts base ours theirs path ∧
    ∀ front, front <+: path → front ≠ path →
      At AllDicts base ours theirs front ∧ At (AllDiffer pyEq) base ours theirs front

/-- One side lacks what the base has and the other side kept. -/
def OneSidedRemoval (base ours theirs : PyVal) : Prop :=
  base ≠ .sentinel ∧
    ((ours = .sentinel ∧ pyEq base theirs = true) ∨ (theirs = .sentinel ∧ pyEq base ours = true))

/-- A one-sided removal at a path which the merge reaches. -/
def RemovalAt (base ours theirs : PyVal) (path : List String) : Prop :=
  At OneSidedRemoval base ours theirs path ∧
    ∀ front, front <+: path → front ≠ path → front ≠ [] →
      At AllDicts base ours theirs front ∧ At (AllDiffer pyEq) base ours theirs front

theorem allDicts_swap {base ours theirs : PyVal} (all : AllDicts base ours theirs) :
    AllDicts base theirs ours :=
  ⟨all.1, all.2.2, all.2.1⟩

/-- A value found below slots is a slot. -/
theorem IsSlot.valueAt {v : PyVal} (slot : IsSlot v) (path : List String) :
    IsSlot (valueAt v path) := by
  induction path generalizing v with
  | nil => exact slot
  | cons key rest ih =>
      cases v with
      | dict d => exact ih (IsSlot.get slot.dict key)
      | _ => exact .inr rfl

theorem removalAt_swap {b o t : Dict}
    (ho : (PyVal.dict o).isJson = true) (ht : (PyVal.dict t).isJson = true) {path : List String}
    (removal : RemovalAt (.dict b) (.dict t) (.dict o) path) :
    RemovalAt (.dict b) (.dict o) (.dict t) path := by
  obtain ⟨⟨present, removed⟩, above⟩ := removal
  refine ⟨⟨present, removed.symm⟩, ?_⟩
  intro front isPrefix proper filled
  obtain ⟨dicts, differ⟩ := above front isPrefix proper filled
  refine ⟨allDicts_swap dicts, ?_⟩
  exact (pyEq_sameOn.allDiffer_swap (IsSlot.valueAt (.inl ho) front)
    (IsSlot.valueAt (.inl ht) front)).mp differ

theorem conflictAt_nil {base ours theirs : PyVal} :
    ConflictAt base ours theirs [] ↔
      AllDiffer pyEq base ours theirs ∧ ¬ AllDicts base ours theirs := by
  constructor
  · rintro ⟨differ, notDicts, _⟩
    exact ⟨by simpa [At, valueAt] using differ, by simpa [At, valueAt] using notDicts⟩
  · rintro ⟨differ, notDicts⟩
    refine ⟨by simpa [At, valueAt] using differ, by simpa [At, valueAt] using notDicts, ?_⟩
    intro front isPrefix proper
    exact absurd (List.prefix_nil.mp isPrefix) proper

theorem conflictAt_cons {b o t : Dict} {key : String} {rest : List String} :
    ConflictAt (.dict b) (.dict o) (.dict t) (key :: rest) ↔
      AllDiffer pyEq (PyVal.dict b) (.dict o) (.dict t) ∧
        ConflictAt (b.get key) (o.get key) (t.get key) rest := by
  constructor
  · rintro ⟨differ, notDicts, above⟩
    refine ⟨(above [] (List.nil_prefix) (by simp)).2, differ, notDicts, ?_⟩
    intro front isPrefix proper
    exact above (key :: front) ((List.cons_prefix_cons).mpr ⟨rfl, isPrefix⟩)
      (fun same => proper (List.cons.inj same).2)
  · rintro ⟨differ, below⟩
    refine ⟨below.1, below.2.1, ?_⟩
    intro front isPrefix proper
    cases front with
    | nil => exact ⟨⟨rfl, rfl, rfl⟩, differ⟩
    | cons first front =>
        obtain ⟨rfl, tailPrefix⟩ := List.cons_prefix_cons.mp isPrefix
        exact below.2.2 front tailPrefix fun same => proper (by rw [same])

theorem removalAt_singleton {b o t : Dict} {key : String} :
    RemovalAt (.dict b) (.dict o) (.dict t) [key] ↔
      OneSidedRemoval (b.get key) (o.get key) (t.get key) := by
  constructor
  · exact fun removal => removal.1
  · intro removal
    refine ⟨removal, fun front isPrefix proper filled => ?_⟩
    rcases List.prefix_cons_iff.mp isPrefix with rfl | ⟨rest, rfl, below⟩
    · exact absurd rfl filled
    · exact absurd (by rw [List.prefix_nil.mp below]) proper

theorem removalAt_cons_cons {b o t : Dict} {key next : String} {rest : List String} :
    RemovalAt (.dict b) (.dict o) (.dict t) (key :: next :: rest) ↔
      (AllDicts (b.get key) (o.get key) (t.get key) ∧
        AllDiffer pyEq (b.get key) (o.get key) (t.get key)) ∧
      RemovalAt (b.get key) (o.get key) (t.get key) (next :: rest) := by
  constructor
  · rintro ⟨removal, above⟩
    have here := above [key] ⟨next :: rest, rfl⟩ (by simp) (by simp)
    refine ⟨by simpa [At, valueAt] using here, removal, ?_⟩
    intro front isPrefix proper _
    exact above (key :: front) (List.cons_prefix_cons.mpr ⟨rfl, isPrefix⟩)
      (fun same => proper (List.cons.inj same).2) (by simp)
  · rintro ⟨here, removal, above⟩
    refine ⟨removal, ?_⟩
    intro front isPrefix proper filled
    rcases List.prefix_cons_iff.mp isPrefix with rfl | ⟨front, rfl, tailPrefix⟩
    · exact absurd rfl filled
    by_cases atKey : front = []
    · subst atKey
      simpa [At, valueAt] using here
    · exact above front tailPrefix (fun same => proper (by rw [same])) atKey

/-! ## Conflicts by path -/

/-- The key paths of the conflicts, in the order in which they are reported. -/
def conflictPaths (base ours theirs : Dict) : List (List String) :=
  (sortedKeys base ours theirs).flatMap fun key =>
    match verdict pyEq (base.get key) (ours.get key) (theirs.get key) with
    | .clash =>
        match _found : base.get key, ours.get key, theirs.get key with
        | .dict b, .dict o, .dict t => (conflictPaths b o t).map fun path => key :: path
        | _, _, _ => [[key]]
    | _ => []
termination_by sizeOf base
decreasing_by exact Dict.sizeOf_lt_of_get _found

/-- The conflict paths that begin with a key. -/
def keyPaths (base ours theirs : Dict) (key : String) : List (List String) :=
  match verdict pyEq (base.get key) (ours.get key) (theirs.get key) with
  | .clash =>
      match base.get key, ours.get key, theirs.get key with
      | .dict b, .dict o, .dict t => (conflictPaths b o t).map fun path => key :: path
      | _, _, _ => [[key]]
  | _ => []

theorem conflictPaths_eq (base ours theirs : Dict) :
    conflictPaths base ours theirs =
      (sortedKeys base ours theirs).flatMap (keyPaths base ours theirs) := by
  rw [conflictPaths]
  congr 1
  funext key
  unfold keyPaths
  split
  · split
    · rename_i found ho ht
      simp only [found, ho, ht]
    · rename_i notDicts
      split
      · rename_i b o t hb ho ht
        exact absurd ht (notDicts b o t hb ho)
      · rfl
  · rfl

theorem mem_keyPaths {base ours theirs : Dict} {key : String} {path : List String}
    (member : path ∈ keyPaths base ours theirs key) : ∃ rest, path = key :: rest := by
  unfold keyPaths at member
  split at member
  · split at member
    · obtain ⟨rest, _, rfl⟩ := List.mem_map.mp member
      exact ⟨rest, rfl⟩
    · exact ⟨[], List.mem_singleton.mp member⟩
  · cases member

theorem ne_nil_of_mem_conflictPaths {base ours theirs : Dict} {path : List String}
    (member : path ∈ conflictPaths base ours theirs) : path ≠ [] := by
  rw [conflictPaths_eq] at member
  obtain ⟨key, _, here⟩ := List.mem_flatMap.mp member
  obtain ⟨rest, rfl⟩ := mem_keyPaths here
  simp

theorem dotted_cons (key : String) {rest : List String} (filled : rest ≠ []) :
    dotted (key :: rest) = key ++ "." ++ dotted rest := by
  cases rest with
  | nil => exact absurd rfl filled
  | cons next rest => rw [dotted, String.intercalate_cons_cons]; rfl

section Clash

variable {base ours theirs : Dict} {key : String}
  (clash : verdict pyEq (base.get key) (ours.get key) (theirs.get key) = .clash)

include clash

theorem keyConflicts_of_dicts {b o t : Dict} (hb : base.get key = .dict b)
    (ho : ours.get key = .dict o) (ht : theirs.get key = .dict t) :
    keyConflicts base ours theirs key = (mergeDicts b o t).2.map fun c => key ++ "." ++ c := by
  rw [keyConflicts, clash]
  simp only [hb, ho, ht]

theorem keyPaths_of_dicts {b o t : Dict} (hb : base.get key = .dict b)
    (ho : ours.get key = .dict o) (ht : theirs.get key = .dict t) :
    keyPaths base ours theirs key = (conflictPaths b o t).map fun path => key :: path := by
  rw [keyPaths, clash]
  simp only [hb, ho, ht]

theorem keyConflicts_of_not_dicts
    (other : ¬ ∃ b o t : Dict,
      base.get key = .dict b ∧ ours.get key = .dict o ∧ theirs.get key = .dict t) :
    keyConflicts base ours theirs key = [key] := by
  rw [keyConflicts, clash]
  dsimp only
  split
  · rename_i b o t hb ho ht
    exact absurd ⟨b, o, t, hb, ho, ht⟩ other
  · rfl

theorem keyPaths_of_not_dicts
    (other : ¬ ∃ b o t : Dict,
      base.get key = .dict b ∧ ours.get key = .dict o ∧ theirs.get key = .dict t) :
    keyPaths base ours theirs key = [[key]] := by
  rw [keyPaths, clash]
  dsimp only
  split
  · rename_i b o t hb ho ht
    exact absurd ⟨b, o, t, hb, ho, ht⟩ other
  · rfl

end Clash

theorem keyConflicts_of_not_clash {base ours theirs : Dict} {key : String}
    (other : verdict pyEq (base.get key) (ours.get key) (theirs.get key) ≠ .clash) :
    keyConflicts base ours theirs key = [] ∧ keyPaths base ours theirs key = [] := by
  unfold keyConflicts keyPaths
  cases found : verdict pyEq (base.get key) (ours.get key) (theirs.get key) with
  | clash => exact absurd found other
  | _ => exact ⟨rfl, rfl⟩

/-- The reported texts are the conflict paths, dotted. -/
theorem conflicts_eq_dotted (base ours theirs : Dict) :
    (mergeDicts base ours theirs).2 = (conflictPaths base ours theirs).map dotted := by
  rw [mergeDicts_conflicts, conflictPaths_eq, List.map_flatMap]
  congr 1
  funext key
  by_cases clash : verdict pyEq (base.get key) (ours.get key) (theirs.get key) = .clash
  · by_cases dicts : ∃ b o t : Dict,
        base.get key = .dict b ∧ ours.get key = .dict o ∧ theirs.get key = .dict t
    · obtain ⟨b, o, t, hb, ho, ht⟩ := dicts
      have smaller : sizeOf b < sizeOf base := Dict.sizeOf_lt_of_get hb
      rw [keyConflicts_of_dicts clash hb ho ht, keyPaths_of_dicts clash hb ho ht,
        conflicts_eq_dotted b o t, List.map_map, List.map_map]
      apply List.map_congr_left
      intro path member
      exact (dotted_cons key (ne_nil_of_mem_conflictPaths member)).symm
    · rw [keyConflicts_of_not_dicts clash dicts, keyPaths_of_not_dicts clash dicts]
      simp [dotted]
  · obtain ⟨noConflicts, noPaths⟩ := keyConflicts_of_not_clash clash
    rw [noConflicts, noPaths]
    rfl
termination_by sizeOf base

theorem mem_conflictPaths_cons {base ours theirs : Dict} {key : String} {rest : List String} :
    key :: rest ∈ conflictPaths base ours theirs ↔
      key :: rest ∈ keyPaths base ours theirs key := by
  rw [conflictPaths_eq, List.mem_flatMap]
  constructor
  · rintro ⟨first, _, member⟩
    obtain ⟨tail, same⟩ := mem_keyPaths member
    obtain ⟨rfl, rfl⟩ := List.cons.inj same
    exact member
  · intro member
    refine ⟨key, ?_, member⟩
    by_contra absent
    rw [mem_sortedKeys_iff, not_or, not_or] at absent
    obtain ⟨_, notO, notT⟩ := absent
    have agree : verdict pyEq (base.get key) (ours.get key) (theirs.get key) = .agree := by
      rw [verdict_eq_agree_iff, Dict.get_of_not_mem notO, Dict.get_of_not_mem notT]
      rfl
    rw [keyPaths, agree] at member
    cases member

/-- Where the values under a key all differ, so do the dictionaries. -/
theorem allDiffer_of_get {base ours theirs : Dict} (hb : (PyVal.dict base).isJson = true)
    (ho : (PyVal.dict ours).isJson = true) (ht : (PyVal.dict theirs).isJson = true) {key : String}
    (differ : AllDiffer pyEq (base.get key) (ours.get key) (theirs.get key)) :
    AllDiffer pyEq (PyVal.dict base) (.dict ours) (.dict theirs) := by
  obtain ⟨one, two, three⟩ := differ
  refine ⟨?_, ?_, ?_⟩ <;> rw [Bool.eq_false_iff]
  · exact fun same => by simp [(pyEq_dict_iff hb ho).mp same key] at one
  · exact fun same => by simp [(pyEq_dict_iff hb ht).mp same key] at two
  · exact fun same => by simp [(pyEq_dict_iff ho ht).mp same key] at three

theorem isDict_iff {v : PyVal} : v.isDict = true ↔ ∃ d : Dict, v = .dict d := by
  cases v <;> simp [isDict]

/-- A path is reported exactly when there is a conflict at it. -/
theorem mem_conflictPaths_iff {base ours theirs : Dict} (hb : (PyVal.dict base).isJson = true)
    (ho : (PyVal.dict ours).isJson = true) (ht : (PyVal.dict theirs).isJson = true)
    (path : List String) :
    path ∈ conflictPaths base ours theirs ↔
      ConflictAt (.dict base) (.dict ours) (.dict theirs) path := by
  cases path with
  | nil =>
      rw [conflictAt_nil]
      constructor
      · exact fun member => absurd rfl (ne_nil_of_mem_conflictPaths member)
      · exact fun conflict => absurd ⟨rfl, rfl, rfl⟩ conflict.2
  | cons key rest =>
      rw [mem_conflictPaths_cons, conflictAt_cons, keyPaths]
      have lift (differ : AllDiffer pyEq (base.get key) (ours.get key) (theirs.get key)) :=
        allDiffer_of_get hb ho ht differ
      split
      · rename_i clash
        have differ := verdict_eq_clash_iff.mp clash
        split
        · rename_i b o t eb eo et
          have smaller : sizeOf b < sizeOf base := Dict.sizeOf_lt_of_get eb
          have jb := (IsSlot.dict (eb ▸ IsSlot.get hb key))
          have jo := (IsSlot.dict (eo ▸ IsSlot.get ho key))
          have jt := (IsSlot.dict (et ▸ IsSlot.get ht key))
          rw [eb, eo, et]
          simp only [List.mem_map, List.cons.injEq, true_and, exists_eq_right]
          rw [mem_conflictPaths_iff jb jo jt rest]
          exact (and_iff_right (lift differ)).symm
        · rename_i notDicts
          have notAll : ¬ AllDicts (base.get key) (ours.get key) (theirs.get key) := by
            rintro ⟨db, dO, dt⟩
            obtain ⟨b, eb⟩ := isDict_iff.mp db
            obtain ⟨o, eo⟩ := isDict_iff.mp dO
            obtain ⟨t, et⟩ := isDict_iff.mp dt
            exact notDicts b o t eb eo et
          simp only [List.mem_singleton, List.cons.injEq, true_and]
          constructor
          · rintro rfl
            exact ⟨lift differ, conflictAt_nil.mpr ⟨differ, notAll⟩⟩
          · rintro ⟨_, conflict⟩
            by_contra deeper
            exact notAll (conflict.2.2 [] List.nil_prefix (Ne.symm deeper)).1
      · rename_i notClash
        simp only [List.not_mem_nil, false_iff]
        rintro ⟨_, conflict⟩
        apply notClash
        rw [verdict_eq_clash_iff]
        by_cases leaf : rest = []
        · subst leaf
          exact conflict.1
        · exact (conflict.2.2 [] List.nil_prefix (Ne.symm leaf)).2
termination_by sizeOf base

end YouMi.Mcp
