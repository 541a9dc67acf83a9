import YouMi.Core.Tool
import YouMi.Mcp.DiffPaths

/-!
# What a difference says of the two dictionaries

A difference is empty exactly between equal dictionaries.  What is reported place
by place determines the new dictionary from the old one; the dotted paths do so
as long as no path stands for two places.  The definitions of tools have no
dictionaries under their fields, so for them a path is a field.
-/

namespace YouMi.Mcp

open YouMi.Core YouMi.Python YouMi.Python.PyVal

/-! ## What is reported where -/

theorem isJson_reported {o n v : PyVal} (ho : IsSlot o) (hn : IsSlot n) {part : Part}
    {chain : List String} (report : reported part o n chain = some v) : v.isJson = true := by
  induction chain generalizing o n with
  | nil =>
      cases part <;>
        simp only [reported, Part.entry?, Option.ite_none_right_eq_some, Option.some.injEq,
          Bool.and_eq_true, Bool.not_eq_true'] at report
      · obtain ⟨⟨_, filled⟩, rfl⟩ := report
        exact hn.resolve_right fun marker => by rw [marker] at filled; cases filled
      · obtain ⟨⟨filled, _⟩, rfl⟩ := report
        exact ho.resolve_right fun marker => by rw [marker] at filled; cases filled
      · obtain ⟨⟨⟨⟨left, right⟩, _⟩, _⟩, rfl⟩ := report
        have left_json := ho.resolve_right fun marker => by rw [marker] at left; cases left
        have right_json := hn.resolve_right fun marker => by rw [marker] at right; cases right
        simp [isJson, listIsJson, left_json, right_json]
  | cons key rest ih =>
      rcases leaf_or_dicts o n with leaf | ⟨inner, other, rfl, rfl⟩
      · rw [reported_leaf leaf] at report
        cases report
      · exact ih (.get ho.dict key) (.get hn.dict key) report

/-- Values that differ and are not both dictionaries are reported where they are. -/
theorem exists_entry {o n : PyVal} (leaf : (o.isDict && n.isDict) = false)
    (differ : ¬ pyEq o n = true) : ∃ part v, Part.entry? part o n = some v := by
  cases left : o.isSentinel with
  | true =>
      cases right : n.isSentinel with
      | true =>
          rw [eq_sentinel left, eq_sentinel right] at differ
          exact absurd rfl differ
      | false => exact ⟨.added, n, by simp [Part.entry?, left, right]⟩
  | false =>
      cases right : n.isSentinel with
      | true => exact ⟨.removed, o, by simp [Part.entry?, left, right]⟩
      | false =>
          exact ⟨.changed, .list [o, n], by simp_all [Part.entry?]⟩

/-- Values that differ have a place with something to report. -/
theorem exists_reported {o n : PyVal} (ho : IsSlot o) (hn : IsSlot n)
    (differ : ¬ pyEq o n = true) : ∃ part chain v, reported part o n chain = some v := by
  rcases leaf_or_dicts o n with leaf | ⟨inner, other, same, rfl⟩
  · obtain ⟨part, v, here⟩ := exists_entry leaf differ
    exact ⟨part, [], v, here⟩
  · subst same
    rw [pyEq_dict_iff ho.dict hn.dict] at differ
    obtain ⟨key, differ⟩ := not_forall.mp differ
    obtain ⟨part, chain, v, below⟩ :=
      exists_reported (IsSlot.get ho.dict key) (IsSlot.get hn.dict key) differ
    exact ⟨part, key :: chain, v, below⟩
termination_by sizeOf o
decreasing_by
  subst same
  exact sizeOf_get_lt _ _

/-! ## The reports determine the new value -/

/-- What is reported of one new value is reported of the other, with an equal value. -/
def Covers (o n n' : PyVal) : Prop :=
  ∀ part chain v, reported part o n chain = some v →
    ∃ v', reported part o n' chain = some v' ∧ pyEq v v' = true

theorem pyEq_of_covers_leaf {o n n' : PyVal} (ho : IsSlot o) (hn : IsSlot n) (hn' : IsSlot n')
    (leaf : (o.isDict && n.isDict) = false) (covers : Covers o n n') (back : Covers o n' n) :
    pyEq n n' = true := by
  by_cases same : pyEq o n = true
  · -- Nothing is reported of the first value, so nothing is of the second.
    have same' : pyEq o n' = true := by
      by_contra differ
      obtain ⟨part, chain, v, report⟩ := exists_reported ho hn' differ
      obtain ⟨_, report', _⟩ := back part chain v report
      rw [reported_of_pyEq ho hn same] at report'
      cases report'
    exact hn.pyEq_trans ho hn' (ho.pyEq_symm hn same) same'
  · obtain ⟨part, v, here⟩ := exists_entry leaf same
    obtain ⟨v', here', equal⟩ := covers part [] v here
    have there : part.entry? o n' = some v' := here'
    cases part <;>
      simp only [Part.entry?, Option.ite_none_right_eq_some, Option.some.injEq, Bool.and_eq_true,
        Bool.not_eq_true'] at here there
    · obtain ⟨_, rfl⟩ := here
      obtain ⟨_, rfl⟩ := there
      exact equal
    · rw [eq_sentinel here.1.2, eq_sentinel there.1.2]
      rfl
    · obtain ⟨_, rfl⟩ := here
      obtain ⟨_, rfl⟩ := there
      simp only [pyEq, listEq, Bool.and_eq_true] at equal
      exact equal.2.1

theorem pyEq_of_covers {o n n' : PyVal} (ho : IsSlot o) (hn : IsSlot n) (hn' : IsSlot n')
    (covers : Covers o n n') (back : Covers o n' n) : pyEq n n' = true := by
  rcases leaf_or_dicts o n with leaf | ⟨inner, other, same, rfl⟩
  · exact pyEq_of_covers_leaf ho hn hn' leaf covers back
  rcases leaf_or_dicts o n' with leaf | ⟨_, other', _, rfl⟩
  · exact hn'.pyEq_symm hn (pyEq_of_covers_leaf ho hn' hn leaf back covers)
  · subst same
    rw [pyEq_dict_iff hn.dict hn'.dict]
    intro key
    exact pyEq_of_covers (IsSlot.get ho.dict key) (IsSlot.get hn.dict key)
      (IsSlot.get hn'.dict key) (fun part chain => covers part (key :: chain))
      (fun part chain => back part (key :: chain))
termination_by sizeOf o
decreasing_by
  subst same
  exact sizeOf_get_lt _ _

/-! ## From paths to places -/

/-- No path stands for one place in the first difference and for another in the second. -/
def PathsApart (old new new' : Dict) : Prop :=
  ∀ part chain chain' v v', reported part (.dict old) (.dict new) chain = some v →
    reported part (.dict old) (.dict new') chain' = some v' →
      joined "" chain = joined "" chain' → chain = chain'

theorem PathsApart.symm {old new new' : Dict} (apart : PathsApart old new new') :
    PathsApart old new' new :=
  fun part chain chain' v v' report report' same =>
    (apart part chain' chain v' v report' report same.symm).symm

theorem pyEq_part_of_value {d d' : DictDiff} (same : pyEq d.value d'.value = true)
    (part : Part) : pyEq (.dict (d.part part)) (.dict (d'.part part)) = true := by
  simp only [DictDiff.value, pyEq, entriesIn, Bool.and_eq_true] at same
  cases part <;> simp_all [List.lookup_cons, DictDiff.part, pyEq]

section Recorded

variable {old new new' : Dict} (ho : (PyVal.dict old).isJson = true)
  (hn : (PyVal.dict new).isJson = true) (hn' : (PyVal.dict new').isJson = true)

include ho hn

theorem isJson_part (path : String) (part : Part) :
    (PyVal.dict ((dictDiff old new path).part part)).isJson = true := by
  refine isJson_dict_iff.mpr ⟨nodup_keys_part old new path part, ?_⟩
  rintro ⟨text, v⟩ member
  obtain ⟨chain, _, report⟩ := mem_part ho hn member
  exact isJson_reported (.inl ho) (.inl hn) report

theorem isJson_value (path : String) : (dictDiff old new path).value.isJson = true := by
  have added := isJson_part ho hn path .added
  have removed := isJson_part ho hn path .removed
  have changed := isJson_part ho hn path .changed
  simp only [DictDiff.part] at added removed changed
  rw [DictDiff.value, isJson_dict_iff]
  simp [Dict.keys, added, removed, changed]

theorem dictDiff_empty_iff :
    ((dictDiff old new "").added = [] ∧ (dictDiff old new "").removed = [] ∧
        (dictDiff old new "").changed = []) ↔
      pyEq (.dict old) (.dict new) = true := by
  constructor
  · rintro ⟨added, removed, changed⟩
    by_contra differ
    obtain ⟨part, chain, v, report⟩ := exists_reported (.inl ho) (.inl hn) differ
    have key := mem_keys_part ho hn "" report
    cases part <;> simp_all [DictDiff.part, Dict.keys]
  · intro same
    have nothing (part : Part) : (dictDiff old new "").part part = [] := by
      refine List.eq_nil_iff_forall_not_mem.mpr fun entry member => ?_
      obtain ⟨chain, _, report⟩ := mem_part (v := entry.2) ho hn member
      rw [reported_of_pyEq (.inl ho) (.inl hn) same] at report
      cases report
    exact ⟨nothing .added, nothing .removed, nothing .changed⟩

include hn'

/-- With the paths apart, an entry that both differences have is of one place. -/
theorem covers_of_value (apart : PathsApart old new new')
    (same : pyEq (dictDiff old new "").value (dictDiff old new' "").value = true) :
    Covers (.dict old) (.dict new) (.dict new') := by
  intro part chain v report
  obtain ⟨⟨text, shown⟩, member, text_eq⟩ := List.mem_map.mp (mem_keys_part ho hn "" report)
  have parts := pyEq_part_of_value same part
  simp only [pyEq, Bool.and_eq_true] at parts
  obtain ⟨shown', found, equal⟩ := entriesIn_iff.mp parts.2 _ member
  obtain ⟨first, first_eq, report₁⟩ := mem_part ho hn member
  obtain ⟨second, second_eq, report₂⟩ := mem_part ho hn' (Dict.mem_of_lookup found)
  have first_second : first = second :=
    apart part first second shown shown' report₁ report₂ (first_eq.trans second_eq.symm)
  have chain_second : chain = second :=
    apart part chain second v shown' report report₂ (text_eq.symm.trans second_eq.symm)
  subst first_second
  subst chain_second
  rw [report, Option.some.injEq] at report₁
  subst report₁
  exact ⟨shown', report₂, equal⟩

/-- With the paths apart, equal differences from one dictionary lead to equal ones. -/
theorem pyEq_of_value (apart : PathsApart old new new')
    (same : pyEq (dictDiff old new "").value (dictDiff old new' "").value = true) :
    pyEq (.dict new) (.dict new') = true := by
  have back : pyEq (dictDiff old new' "").value (dictDiff old new "").value = true :=
    pyEq_symm_json _ _ (isJson_value ho hn "") (isJson_value ho hn' "") same
  exact pyEq_of_covers (.inl ho) (.inl hn) (.inl hn') (covers_of_value ho hn hn' apart same)
    (covers_of_value ho hn' hn apart.symm back)

end Recorded

/-! ## Where the paths are apart -/

/-- With no dictionaries in the old one, every path is a key. -/
theorem pathsApart_of_flat {old : Dict} (flat : ∀ key inner, old.get key ≠ .dict inner)
    (new new' : Dict) : PathsApart old new new' := by
  have short {part : Part} {other : Dict} {chain : List String} {v : PyVal}
      (report : reported part (.dict old) (.dict other) chain = some v) :
      ∃ key, chain = [key] := by
    rcases chain with _ | ⟨key, _ | ⟨second, rest⟩⟩
    · exact absurd rfl (reported_ne_nil report)
    · exact ⟨key, rfl⟩
    · rcases leaf_or_dicts (old.get key) (other.get key) with leaf | ⟨inner, _, found, _⟩
      · rw [reported, reported_leaf leaf] at report
        cases report
      · exact absurd found (flat key inner)
  intro part chain chain' v v' report report' same
  obtain ⟨key, rfl⟩ := short report
  obtain ⟨key', rfl⟩ := short report'
  simpa [joined, joinPath] using same

theorem pathsApart_of_dump (d : ToolDefinition) (new new' : Dict) :
    PathsApart d.dump new new' :=
  pathsApart_of_flat d.get_dump_ne_dict new new'

/-- A key that `_join_path` keeps apart from its neighbours. -/
def PlainKey (key : String) : Prop := key ≠ "" ∧ '.' ∉ key.toList

/-- All keys on the way to a value are plain. -/
def PlainKeys (v : PyVal) : Prop :=
  ∀ chain, valueAt v chain ≠ .sentinel → ∀ key ∈ chain, PlainKey key

theorem toList_joined (path : String) (filled : path ≠ "") (chain : List String) :
    (joined path chain).toList = path.toList ++ chain.flatMap fun key => '.' :: key.toList := by
  induction chain generalizing path with
  | nil => simp [joined]
  | cons key rest ih =>
      have longer : path ++ "." ++ key ≠ "" := by simp [filled]
      have tail : joined path (key :: rest) = joined (path ++ "." ++ key) rest := by
        simp [joined, joinPath, filled]
      rw [tail, ih _ longer]
      simp

theorem toList_joined_plain {chain : List String} (plain : ∀ key ∈ chain, PlainKey key) :
    (joined "" chain).toList = ['.'].intercalate (chain.map String.toList) := by
  cases chain with
  | nil => rfl
  | cons key rest =>
      have tail : joined "" (key :: rest) = joined key rest := by simp [joined, joinPath]
      have spread (front : List Char) (rest : List String) :
          ['.'].intercalate (front :: rest.map String.toList) =
            front ++ rest.flatMap fun key => '.' :: key.toList := by
        induction rest generalizing front with
        | nil => simp
        | cons second rest ih =>
            rw [List.map_cons, List.intercalate_cons_cons, ih, List.flatMap_cons]
            simp
      rw [tail, toList_joined key (plain key List.mem_cons_self).1, List.map_cons, spread]

theorem joined_injective {chain chain' : List String} (plain : ∀ key ∈ chain, PlainKey key)
    (plain' : ∀ key ∈ chain', PlainKey key) (filled : chain ≠ []) (filled' : chain' ≠ [])
    (same : joined "" chain = joined "" chain') : chain = chain' := by
  have split {chain : List String} (plain : ∀ key ∈ chain, PlainKey key) (filled : chain ≠ []) :
      (joined "" chain).toList.splitOn '.' = chain.map String.toList := by
    rw [toList_joined_plain plain]
    refine List.splitOn_intercalate '.' ?_ (by simpa using filled)
    intro text member
    obtain ⟨key, inside, rfl⟩ := List.mem_map.mp member
    exact (plain key inside).2
  have texts : chain.map String.toList = chain'.map String.toList := by
    rw [← split plain filled, ← split plain' filled', same]
  exact (List.map_inj_right fun _ _ => String.toList_inj.mp).mp texts

theorem valueAt_of_reported {o n v : PyVal} {part : Part} {chain : List String}
    (report : reported part o n chain = some v) :
    valueAt o chain ≠ .sentinel ∨ valueAt n chain ≠ .sentinel := by
  induction chain generalizing o n with
  | nil =>
      by_contra absent
      obtain ⟨left, right⟩ := not_or.mp absent
      rw [valueAt, not_not] at left right
      subst left
      subst right
      cases part <;> cases report
  | cons key rest ih =>
      rcases leaf_or_dicts o n with leaf | ⟨inner, other, rfl, rfl⟩
      · rw [reported_leaf leaf] at report
        cases report
      · exact ih report

/-- Keys without dots keep the paths apart. -/
theorem pathsApart_of_plainKeys {old new new' : Dict} (ho : PlainKeys (.dict old))
    (hn : PlainKeys (.dict new)) (hn' : PlainKeys (.dict new')) : PathsApart old new new' := by
  intro part chain chain' v v' report report' same
  have plain := (valueAt_of_reported report).elim (ho chain) (hn chain)
  have plain' := (valueAt_of_reported report').elim (ho chain') (hn' chain')
  exact joined_injective plain plain' (reported_ne_nil report) (reported_ne_nil report') same

/-! ## The difference as a record of the change -/

theorem dictDiff_records (old new new' : JsonObject) :
    (((dictDiff old.entries new.entries "").added = [] ∧
        (dictDiff old.entries new.entries "").removed = [] ∧
        (dictDiff old.entries new.entries "").changed = []) ↔
      pyEq (.dict old.entries) (.dict new.entries) = true) ∧
    (PathsApart old.entries new.entries new'.entries →
      ¬ pyEq (.dict new.entries) (.dict new'.entries) = true →
        ¬ pyEq (dictDiff old.entries new.entries "").value
            (dictDiff old.entries new'.entries "").value = true) ∧
    (∀ d e e' : ToolDefinition, ¬ pyEq (.dict e.dump) (.dict e'.dump) = true →
      ¬ pyEq (dictDiff d.dump e.dump "").value (dictDiff d.dump e'.dump "").value = true) := by
  refine ⟨dictDiff_empty_iff old.json new.json, fun apart differ same => differ ?_,
    fun d e e' differ same => differ ?_⟩
  · exact pyEq_of_value old.json new.json new'.json apart same
  · exact pyEq_of_value d.isJson_dump e.isJson_dump e'.isJson_dump
      (pathsApart_of_dump d e.dump e'.dump) same

/-- Here no value is a dictionary, so a key with a dot in it cannot be mistaken. -/
theorem dictDiff_records_dottedKey :
    ¬ pyEq (dictDiff [("a", .null)] [("a", .int 1)] "").value
        (dictDiff [("a", .null)] [("a", .null), ("a.b", .int 1)] "").value = true := by
  refine (dictDiff_records ⟨[("a", .null)], by decide⟩ ⟨[("a", .int 1)], by decide⟩
    ⟨[("a", .null), ("a.b", .int 1)], by decide⟩).2.1 (pathsApart_of_flat ?_ _ _) ?_
  · intro key inner
    cases here : key == "a" <;> simp [Dict.get, List.lookup_cons, here]
  · simp [pyEq]

/-- With keys without dots, different dictionaries have different differences. -/
theorem value_differs_of_plainKeys (old new new' : JsonObject)
    (ho : PlainKeys (.dict old.entries)) (hn : PlainKeys (.dict new.entries))
    (hn' : PlainKeys (.dict new'.entries))
    (differ : ¬ pyEq (.dict new.entries) (.dict new'.entries) = true) :
    ¬ pyEq (dictDiff old.entries new.entries "").value
        (dictDiff old.entries new'.entries "").value = true :=
  fun same => differ (pyEq_of_value old.json new.json new'.json
    (pathsApart_of_plainKeys ho hn hn') same)

/-- A key `b` below `a` and a key `a.b` beside it are added under one path. -/
theorem not_determines_keyBelow :
    ¬ ∀ old new new' : JsonObject, ¬ pyEq (.dict new.entries) (.dict new'.entries) = true →
      ¬ pyEq (dictDiff old.entries new.entries "").value
          (dictDiff old.entries new'.entries "").value = true := by
  intro determines
  let below : JsonObject := ⟨[("a", .dict [("b", .int 1)])], by decide⟩
  let beside : JsonObject := ⟨[("a", .dict []), ("a.b", .int 1)], by decide⟩
  have old_json : (PyVal.dict [("a", .dict [])]).isJson = true := by decide
  have path : joinPath (joinPath "" "a") "b" = joinPath "" "a.b" := by decide
  have same : dictDiff [("a", .dict [])] below.entries "" =
      dictDiff [("a", .dict [])] beside.entries "" := by
    simp [dictDiff_eq, pieces, keptDiff, newDiff, pyEq, path, DictDiff.join, DictDiff.empty,
      update, below, beside, entriesIn, Dict.set, Dict.keys]
  refine determines ⟨[("a", .dict [])], old_json⟩ below beside (by simp [pyEq, below, beside]) ?_
  rw [same]
  exact pyEq_refl_json _ (isJson_value old_json beside.json "")

end YouMi.Mcp
