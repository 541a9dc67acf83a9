import Mathlib.Data.List.Dedup
import Mathlib.Data.List.Sort
import Mathlib.Data.List.Infix
import Mathlib.Data.String.Basic
import YouMi.Library.ThreeWay
import YouMi.Python.Equality

/-!
# Three-way merge of dictionaries

`_merge_dicts` goes through the keys of the three dictionaries in sorted order
and decides each key by comparing the three values under it, where the marker
`_MISSING` stands for an absent key.  Its result is read key by key: what the
merged dictionary holds under a key depends only on the three values there.
-/

namespace YouMi.Mcp

open YouMi.Library YouMi.Python YouMi.Python.PyVal

/-- `sorted(base.keys() | ours.keys() | theirs.keys())`. -/
def sortedKeys (base ours theirs : Dict) : List String :=
  (base.keys ++ ours.keys ++ theirs.keys).dedup.insertionSort (· ≤ ·)

/-- `_merge_dicts`: the merged dictionary and the dotted paths of the conflicts. -/
def mergeDicts (base ours theirs : Dict) : Dict × List String :=
  (sortedKeys base ours theirs).foldl
    (fun state key =>
      if pyEq (ours.get key) (theirs.get key) then
        (if (ours.get key).isSentinel then state.1.pop key else state.1.set key (ours.get key),
          state.2)
      else if pyEq (base.get key) (ours.get key) then
        (if (theirs.get key).isSentinel then state.1.pop key
          else state.1.set key (theirs.get key), state.2)
      else if pyEq (base.get key) (theirs.get key) then
        -- The source assigns without asking whether ours lacks the key.
        (state.1.set key (ours.get key), state.2)
      else
        match _found : base.get key, ours.get key, theirs.get key with
        | .dict b, .dict o, .dict t =>
            let sub := mergeDicts b o t
            (state.1.set key (.dict sub.1), state.2 ++ sub.2.map fun c => key ++ "." ++ c)
        | _, _, _ => (state.1, state.2 ++ [key]))
    (ours, [])
termination_by sizeOf base
decreasing_by exact Dict.sizeOf_lt_of_get _found

/-! ## One key at a time -/

/-- What the merged dictionary holds under a key. -/
def mergedLookup (base ours theirs : Dict) (key : String) : Option PyVal :=
  match verdict pyEq (base.get key) (ours.get key) (theirs.get key) with
  | .agree => if (ours.get key).isSentinel then none else some (ours.get key)
  | .takeTheirs => if (theirs.get key).isSentinel then none else some (theirs.get key)
  | .keepOurs => some (ours.get key)
  | .clash =>
      match base.get key, ours.get key, theirs.get key with
      | .dict b, .dict o, .dict t => some (.dict (mergeDicts b o t).1)
      | _, _, _ => ours.lookup key

/-- The conflicts reported for a key. -/
def keyConflicts (base ours theirs : Dict) (key : String) : List String :=
  match verdict pyEq (base.get key) (ours.get key) (theirs.get key) with
  | .clash =>
      match base.get key, ours.get key, theirs.get key with
      | .dict b, .dict o, .dict t => (mergeDicts b o t).2.map fun c => key ++ "." ++ c
      | _, _, _ => [key]
  | _ => []

/-- The body of the loop, for one key. -/
def mergeKey (base ours theirs : Dict) (state : Dict × List String) (key : String) :
    Dict × List String :=
  (match verdict pyEq (base.get key) (ours.get key) (theirs.get key) with
    | .agree =>
        if (ours.get key).isSentinel then state.1.pop key else state.1.set key (ours.get key)
    | .takeTheirs =>
        if (theirs.get key).isSentinel then state.1.pop key else state.1.set key (theirs.get key)
    | .keepOurs => state.1.set key (ours.get key)
    | .clash =>
        match base.get key, ours.get key, theirs.get key with
        | .dict b, .dict o, .dict t => state.1.set key (.dict (mergeDicts b o t).1)
        | _, _, _ => state.1,
   state.2 ++ keyConflicts base ours theirs key)

theorem mergeDicts_eq (base ours theirs : Dict) :
    mergeDicts base ours theirs =
      (sortedKeys base ours theirs).foldl (mergeKey base ours theirs) (ours, []) := by
  rw [mergeDicts]
  congr 1
  funext state key
  unfold mergeKey keyConflicts verdict
  split
  · simp
  · split
    · simp
    · split
      · simp
      · split
        · rename_i found ho ht
          simp only [found, ho, ht]
        · rename_i notDicts
          dsimp only
          split
          · rename_i b o t hb ho ht
            exact absurd ht (notDicts b o t hb ho)
          · rfl

theorem mergeKey_lookup_ne {base ours theirs : Dict} {state : Dict × List String}
    {key other : String} (ne : other ≠ key) :
    (mergeKey base ours theirs state key).1.lookup other = state.1.lookup other := by
  have hset (value : PyVal) : (state.1.set key value).lookup other = state.1.lookup other :=
    Dict.lookup_set_ne ne
  have hpop : (state.1.pop key).lookup other = state.1.lookup other := Dict.lookup_pop_ne ne
  unfold mergeKey
  dsimp only
  split
  · split <;> simp [hset, hpop]
  · split <;> simp [hset, hpop]
  · exact hset _
  · split <;> simp [hset]

theorem mergeKey_lookup_self {base ours theirs : Dict} {state : Dict × List String}
    {key : String} (untouched : state.1.lookup key = ours.lookup key) :
    (mergeKey base ours theirs state key).1.lookup key = mergedLookup base ours theirs key := by
  unfold mergeKey mergedLookup
  dsimp only
  split
  · split
    · exact Dict.lookup_pop_self
    · exact Dict.lookup_set_self
  · split
    · exact Dict.lookup_pop_self
    · exact Dict.lookup_set_self
  · exact Dict.lookup_set_self
  · split
    · exact Dict.lookup_set_self
    · exact untouched

theorem foldl_mergeKey_lookup {base ours theirs : Dict} {keys : List String}
    (nodup : keys.Nodup) (state : Dict × List String)
    (untouched : ∀ key ∈ keys, state.1.lookup key = ours.lookup key) (key : String) :
    (keys.foldl (mergeKey base ours theirs) state).1.lookup key =
      if key ∈ keys then mergedLookup base ours theirs key else state.1.lookup key := by
  induction keys generalizing state with
  | nil => simp
  | cons first rest ih =>
      obtain ⟨absent, rest_nodup⟩ := List.nodup_cons.mp nodup
      rw [List.foldl_cons, ih rest_nodup]
      · by_cases here : key = first
        · subst here
          rw [if_neg absent, if_pos List.mem_cons_self,
            mergeKey_lookup_self (untouched key List.mem_cons_self)]
        · rw [mergeKey_lookup_ne here]
          simp [here]
      · intro k hk
        have ne : k ≠ first := fun same => absent (same ▸ hk)
        rw [mergeKey_lookup_ne ne]
        exact untouched k (List.mem_cons_of_mem _ hk)

theorem foldl_mergeKey_conflicts {base ours theirs : Dict} (keys : List String)
    (state : Dict × List String) :
    (keys.foldl (mergeKey base ours theirs) state).2 =
      state.2 ++ keys.flatMap (keyConflicts base ours theirs) := by
  induction keys generalizing state with
  | nil => simp
  | cons first rest ih =>
      rw [List.foldl_cons, ih, List.flatMap_cons]
      simp [mergeKey, List.append_assoc]

theorem nodup_sortedKeys (base ours theirs : Dict) : (sortedKeys base ours theirs).Nodup :=
  (List.perm_insertionSort _ _).nodup_iff.mpr (List.nodup_dedup _)

theorem mem_sortedKeys_iff {base ours theirs : Dict} {key : String} :
    key ∈ sortedKeys base ours theirs ↔ key ∈ base.keys ∨ key ∈ ours.keys ∨ key ∈ theirs.keys := by
  rw [sortedKeys, List.mem_insertionSort, List.mem_dedup, List.mem_append, List.mem_append,
    or_assoc]

theorem sortedKeys_swap (base ours theirs : Dict) :
    sortedKeys base theirs ours = sortedKeys base ours theirs := by
  apply (List.perm_ext_iff_of_nodup (nodup_sortedKeys _ _ _) (nodup_sortedKeys _ _ _)).mpr
    (fun key => by simp only [mem_sortedKeys_iff]; tauto) |>.eq_of_pairwise
  · exact fun a b _ _ => le_antisymm
  · exact List.pairwise_insertionSort _ _
  · exact List.pairwise_insertionSort _ _

/-- A key that none of the three dictionaries has is not in the merged one. -/
theorem mergedLookup_of_absent {base ours theirs : Dict} {key : String}
    (absent : key ∉ sortedKeys base ours theirs) :
    mergedLookup base ours theirs key = none ∧ ours.lookup key = none ∧
      keyConflicts base ours theirs key = [] := by
  rw [mem_sortedKeys_iff, not_or, not_or] at absent
  obtain ⟨notB, notO, notT⟩ := absent
  have agree : verdict pyEq (base.get key) (ours.get key) (theirs.get key) = .agree := by
    rw [verdict_eq_agree_iff, Dict.get_of_not_mem notO, Dict.get_of_not_mem notT]
    rfl
  refine ⟨?_, Dict.lookup_eq_none_iff_not_mem.mpr notO, ?_⟩
  · rw [mergedLookup, agree]
    simp [Dict.get_of_not_mem notO, isSentinel]
  · rw [keyConflicts, agree]

/-- The merged dictionary, key by key. -/
theorem lookup_mergeDicts (base ours theirs : Dict) (key : String) :
    (mergeDicts base ours theirs).1.lookup key = mergedLookup base ours theirs key := by
  rw [mergeDicts_eq,
    foldl_mergeKey_lookup (nodup_sortedKeys base ours theirs) (ours, []) (fun _ _ => rfl)]
  split
  · rfl
  · rename_i absent
    obtain ⟨merged, start, _⟩ := mergedLookup_of_absent absent
    rw [merged, start]

theorem mergeDicts_conflicts (base ours theirs : Dict) :
    (mergeDicts base ours theirs).2 =
      (sortedKeys base ours theirs).flatMap (keyConflicts base ours theirs) := by
  rw [mergeDicts_eq, foldl_mergeKey_conflicts, List.nil_append]

theorem nodup_keys_mergeKey {base ours theirs : Dict} {state : Dict × List String} {key : String}
    (nodup : state.1.keys.Nodup) : (mergeKey base ours theirs state key).1.keys.Nodup := by
  have hset (value : PyVal) : (state.1.set key value).keys.Nodup := Dict.nodup_keys_set nodup
  have hpop : (state.1.pop key).keys.Nodup := Dict.nodup_keys_pop nodup
  unfold mergeKey
  dsimp only
  split
  · split
    · exact hpop
    · exact hset _
  · split
    · exact hpop
    · exact hset _
  · exact hset _
  · split
    · exact hset _
    · exact nodup

theorem nodup_keys_mergeDicts {base ours theirs : Dict} (nodup : ours.keys.Nodup) :
    (mergeDicts base ours theirs).1.keys.Nodup := by
  rw [mergeDicts_eq]
  have keep : ∀ (keys : List String) (state : Dict × List String), state.1.keys.Nodup →
      (keys.foldl (mergeKey base ours theirs) state).1.keys.Nodup := by
    intro keys
    induction keys with
    | nil => exact fun _ start => start
    | cons first rest ih => exact fun state start => ih _ (nodup_keys_mergeKey start)
  exact keep _ _ nodup

end YouMi.Mcp
