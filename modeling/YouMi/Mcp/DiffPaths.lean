import YouMi.Mcp.DictDiff
import YouMi.Mcp.MergePaths

/-!
# What a difference reports, and where

Every entry of a difference stands for one place in the two dictionaries, reached
by a chain of keys through dictionaries on both sides.  `_join_path` writes the
chain as dotted text, and the three parts keep one entry for each text.
-/

namespace YouMi.Mcp

open YouMi.Library YouMi.Python YouMi.Python.PyVal

/-! ## The three parts as one -/

inductive Part where
  | added
  | removed
  | changed

namespace DictDiff

def part (d : DictDiff) : Part → Dict
  | .added => d.added
  | .removed => d.removed
  | .changed => d.changed

/-- The dictionary that `_dict_diff` returns. -/
def value (d : DictDiff) : PyVal :=
  .dict [("added", .dict d.added), ("removed", .dict d.removed), ("changed", .dict d.changed)]

def empty : DictDiff := ⟨[], [], []⟩

def join (d more : DictDiff) : DictDiff :=
  ⟨update d.added more.added, update d.removed more.removed, update d.changed more.changed⟩

@[simp]
theorem part_join (d more : DictDiff) (part : Part) :
    (d.join more).part part = update (d.part part) (more.part part) := by
  cases part <;> rfl

@[simp]
theorem part_empty (part : Part) : empty.part part = [] := by
  cases part <;> rfl

end DictDiff

/-! ## One key at a time -/

/-- What the loop over the old dictionary reports for one of its entries. -/
def keptDiff (new : Dict) (path : String) (entry : String × PyVal) : DictDiff :=
  match new.lookup entry.1 with
  | none => ⟨[], [(joinPath path entry.1, entry.2)], []⟩
  | some value =>
      if pyEq entry.2 value then .empty
      else
        match entry.2, value with
        | .dict inner, .dict other => dictDiff inner other (joinPath path entry.1)
        | _, _ => ⟨[], [], [(joinPath path entry.1, .list [entry.2, value])]⟩

/-- What the loop over the new dictionary reports for one of its entries. -/
def newDiff (old : Dict) (path : String) (entry : String × PyVal) : DictDiff :=
  if (old.lookup entry.1).isSome then .empty else ⟨[(joinPath path entry.1, entry.2)], [], []⟩

/-- The reports of the two loops, in order. -/
def pieces (old new : Dict) (path : String) : List DictDiff :=
  old.map (keptDiff new path) ++ new.map (newDiff old path)

theorem dictDiff_eq (old new : Dict) (path : String) :
    dictDiff old new path = (pieces old new path).foldl DictDiff.join .empty := by
  rw [dictDiff, pieces, List.foldl_append, List.foldl_map, List.foldl_map]
  congr 1
  · funext state entry
    unfold newDiff
    split <;> rfl
  · refine Eq.trans ?_ List.foldl_attach
    congr 1
    funext state entry
    unfold keptDiff
    dsimp only
    cases new.lookup entry.1.1 with
    | none => rfl
    | some value =>
        dsimp only
        split
        · rfl
        · split
          · rename_i old_dict _
            rw [old_dict]
            rfl
          · rename_i notDicts _
            split
            · rename_i inner other old_dict _
              exact absurd rfl (notDicts inner other old_dict)
            · rfl

/-- An entry of a part has been reported by one of the pieces. -/
theorem mem_part_foldl {list : List DictDiff} {d : DictDiff} {part : Part}
    {entry : String × PyVal} (member : entry ∈ (list.foldl DictDiff.join d).part part) :
    entry ∈ d.part part ∨ ∃ piece ∈ list, entry ∈ piece.part part := by
  induction list generalizing d with
  | nil => exact .inl member
  | cons first rest ih =>
      rcases ih member with before | ⟨piece, later, reported⟩
      · rw [DictDiff.part_join] at before
        rcases mem_update before with before | now
        · exact .inl before
        · exact .inr ⟨first, List.mem_cons_self, now⟩
      · exact .inr ⟨piece, List.mem_cons_of_mem _ later, reported⟩

/-- The paths of a part are those of the pieces. -/
theorem mem_keys_foldl {list : List DictDiff} {d : DictDiff} {part : Part} {path : String} :
    path ∈ ((list.foldl DictDiff.join d).part part).keys ↔
      path ∈ (d.part part).keys ∨ ∃ piece ∈ list, path ∈ (piece.part part).keys := by
  induction list generalizing d with
  | nil => simp
  | cons first rest ih =>
      rw [List.foldl_cons, ih, DictDiff.part_join, mem_keys_update, List.exists_mem_cons_iff,
        or_assoc]

theorem nodup_keys_foldl (list : List DictDiff) {d : DictDiff} {part : Part}
    (nodup : (d.part part).keys.Nodup) :
    ((list.foldl DictDiff.join d).part part).keys.Nodup := by
  induction list generalizing d with
  | nil => exact nodup
  | cons first rest ih =>
      refine ih ?_
      rw [DictDiff.part_join]
      exact nodup_keys_update _ nodup

theorem nodup_keys_part (old new : Dict) (path : String) (part : Part) :
    ((dictDiff old new path).part part).keys.Nodup := by
  rw [dictDiff_eq]
  exact nodup_keys_foldl _ (by simp [Dict.keys])

theorem exists_piece_of_mem_part {old new : Dict} {path : String} {part : Part}
    {entry : String × PyVal} (member : entry ∈ (dictDiff old new path).part part) :
    ∃ piece ∈ pieces old new path, entry ∈ piece.part part := by
  rw [dictDiff_eq] at member
  rcases mem_part_foldl member with impossible | reported
  · simp at impossible
  · exact reported

theorem mem_keys_part_of_piece {old new : Dict} {path text : String} {part : Part}
    {piece : DictDiff} (member : piece ∈ pieces old new path)
    (key : text ∈ (piece.part part).keys) : text ∈ ((dictDiff old new path).part part).keys := by
  rw [dictDiff_eq]
  exact mem_keys_foldl.mpr (.inr ⟨piece, member, key⟩)

/-! ## Places -/

/-- What is reported of a value and its successor for their own place. -/
def Part.entry? : Part → PyVal → PyVal → Option PyVal
  | .added, o, n => if o.isSentinel && !n.isSentinel then some n else none
  | .removed, o, n => if !o.isSentinel && n.isSentinel then some o else none
  | .changed, o, n =>
      if !o.isSentinel && !n.isSentinel && !pyEq o n && !(o.isDict && n.isDict) then
        some (.list [o, n])
      else none

/-- What is reported for the place at the end of a chain of keys. -/
def reported (part : Part) : PyVal → PyVal → List String → Option PyVal
  | o, n, [] => part.entry? o n
  | .dict o, .dict n, key :: rest => reported part (Dict.get o key) (Dict.get n key) rest
  | _, _, _ :: _ => none

/-- The dotted path of a chain of keys. -/
def joined (path : String) (chain : List String) : String := chain.foldl joinPath path

/-! ## The pieces, place by place -/

/-- What the comparison of two values under one key reports, at the path of the key. -/
def placeDiff (text : String) (o n : PyVal) : DictDiff :=
  match o, n with
  | .dict inner, .dict other => if pyEq o n then .empty else dictDiff inner other text
  | _, _ =>
      let entries (part : Part) : Dict := ((part.entry? o n).map fun v => (text, v)).toList
      ⟨entries .added, entries .removed, entries .changed⟩

/-- Two values that are not both dictionaries are reported at their own place only. -/
theorem part_placeDiff {text : String} {o n : PyVal}
    (leaf : (o.isDict && n.isDict) = false) (part : Part) :
    (placeDiff text o n).part part = ((part.entry? o n).map fun v => (text, v)).toList := by
  unfold placeDiff
  split
  · cases leaf
  · cases part <;> rfl

theorem placeDiff_dict (text : String) (inner other : Dict) :
    placeDiff text (.dict inner) (.dict other) =
      if pyEq (.dict inner) (.dict other) then .empty else dictDiff inner other text := rfl

theorem leaf_or_dicts (o n : PyVal) :
    (o.isDict && n.isDict) = false ∨ ∃ inner other, o = .dict inner ∧ n = .dict other := by
  cases o <;> cases n <;> simp [isDict]

theorem keptDiff_eq {new : Dict} (hn : (PyVal.dict new).isJson = true) (path : String)
    {entry : String × PyVal} (json : entry.2.isJson = true) :
    keptDiff new path entry =
      placeDiff (joinPath path entry.1) entry.2 (Dict.get new entry.1) := by
  have filled := isSentinel_of_isJson json
  have marker : isSentinel .sentinel = true := rfl
  unfold keptDiff
  cases found : new.lookup entry.1 with
  | none =>
      rw [(Dict.lookup_eq_none_iff_get hn).mp found]
      simp [placeDiff, Part.entry?, filled, marker]
  | some value =>
      have value_filled : value.isSentinel = false := isSentinel_of_isJson
        ((isJson_dict_iff.mp hn).2 (entry.1, value) (Dict.mem_of_lookup found))
      rw [Dict.get_of_lookup found]
      unfold placeDiff
      dsimp only
      by_cases same : pyEq entry.2 value = true
      · rw [if_pos same]
        split
        · rw [if_pos same]
        · simp [Part.entry?, filled, value_filled, same, DictDiff.empty]
      · rw [if_neg same]
        split
        · rw [if_neg same]
        · rename_i value _ _ notDicts
          have leaf : entry.2.isDict = false ∨ value.isDict = false := by
            rw [← Bool.and_eq_false_iff]
            cases left : entry.2 <;> cases right : value <;> try rfl
            exact (notDicts _ _ left right).elim
          simp [Part.entry?, filled, value_filled, Bool.eq_false_of_not_eq_true same, leaf]

theorem newDiff_eq {old : Dict} (path : String) {entry : String × PyVal}
    (absent : old.lookup entry.1 = none) (json : entry.2.isJson = true) :
    newDiff old path entry =
      placeDiff (joinPath path entry.1) (Dict.get old entry.1) entry.2 := by
  have filled := isSentinel_of_isJson json
  have marker : isSentinel .sentinel = true := rfl
  rw [newDiff, absent, Dict.get_of_not_mem (Dict.lookup_eq_none_iff_not_mem.mp absent)]
  simp [placeDiff, Part.entry?, filled, marker]

section Places

variable {old new : Dict} (ho : (PyVal.dict old).isJson = true)
  (hn : (PyVal.dict new).isJson = true)

include ho hn

/-- Every piece is the comparison under one key, or empty. -/
theorem mem_pieces {path : String} {piece : DictDiff} (member : piece ∈ pieces old new path) :
    piece = .empty ∨
      ∃ key, piece = placeDiff (joinPath path key) (old.get key) (new.get key) := by
  rcases List.mem_append.mp member with kept | added
  · obtain ⟨entry, inside, rfl⟩ := List.mem_map.mp kept
    refine .inr ⟨entry.1, ?_⟩
    rw [keptDiff_eq hn path ((isJson_dict_iff.mp ho).2 _ inside),
      Dict.get_of_lookup (Dict.lookup_eq_some_of_mem (isJson_dict_iff.mp ho).1 inside)]
  · obtain ⟨entry, inside, rfl⟩ := List.mem_map.mp added
    cases found : old.lookup entry.1 with
    | some value => exact .inl (by rw [newDiff, found]; rfl)
    | none =>
        refine .inr ⟨entry.1, ?_⟩
        rw [newDiff_eq path found ((isJson_dict_iff.mp hn).2 _ inside),
          Dict.get_of_lookup (Dict.lookup_eq_some_of_mem (isJson_dict_iff.mp hn).1 inside)]

/-- Every key of the two dictionaries has its piece. -/
theorem placeDiff_mem_pieces (path : String) {key : String}
    (present : old.get key ≠ .sentinel ∨ new.get key ≠ .sentinel) :
    placeDiff (joinPath path key) (old.get key) (new.get key) ∈ pieces old new path := by
  by_cases kept : old.get key = .sentinel
  · have filled := present.resolve_left (absurd kept)
    refine List.mem_append_right _ (List.mem_map.mpr ⟨_, Dict.mem_of_get filled, ?_⟩)
    exact newDiff_eq path ((Dict.lookup_eq_none_iff_get ho).mpr kept)
      (isJson_of_slot (.get hn key) filled)
  · refine List.mem_append_left _ (List.mem_map.mpr ⟨_, Dict.mem_of_get kept, ?_⟩)
    exact keptDiff_eq hn path (isJson_of_slot (.get ho key) kept)

end Places

/-! ## Entries and places -/

/-- Equal values have nothing to report at any place. -/
theorem reported_of_pyEq {o n : PyVal} (ho : IsSlot o) (hn : IsSlot n)
    (same : pyEq o n = true) (part : Part) (chain : List String) :
    reported part o n chain = none := by
  induction chain generalizing o n with
  | nil =>
      cases part with
      | changed => simp [reported, Part.entry?, same]
      | added =>
          by_cases absent : o = .sentinel
          · subst absent
            rw [pyEq_sentinel_left.mp same]
            rfl
          · simp [reported, Part.entry?, isSentinel_eq_false absent]
      | removed =>
          by_cases absent : n = .sentinel
          · subst absent
            rw [pyEq_sentinel_right.mp same]
            rfl
          · simp [reported, Part.entry?, isSentinel_eq_false absent]
  | cons key rest ih =>
      unfold reported
      split
      · cases ‹_ :: _ = []›
      · rename_i old new first later same_chain
        obtain ⟨rfl, rfl⟩ := List.cons.inj same_chain
        exact ih (.get ho.dict key) (.get hn.dict key)
          ((pyEq_dict_iff ho.dict hn.dict).mp same key)
      · rfl

theorem reported_leaf {o n : PyVal} (leaf : (o.isDict && n.isDict) = false) (part : Part)
    (key : String) (rest : List String) : reported part o n (key :: rest) = none := by
  cases o <;> cases n <;> first | rfl | cases leaf

theorem reported_ne_nil {old new : Dict} {part : Part} {chain : List String} {v : PyVal}
    (report : reported part (.dict old) (.dict new) chain = some v) : chain ≠ [] := by
  rintro rfl
  cases part <;> simp [reported, Part.entry?, isSentinel, isDict] at report

/-- Every entry of a difference stands for a place. -/
theorem mem_part {old new : Dict} (ho : (PyVal.dict old).isJson = true)
    (hn : (PyVal.dict new).isJson = true) {path text : String} {part : Part} {v : PyVal}
    (member : (text, v) ∈ (dictDiff old new path).part part) :
    ∃ chain, joined path chain = text ∧ reported part (.dict old) (.dict new) chain = some v := by
  obtain ⟨piece, inside, entry⟩ := exists_piece_of_mem_part member
  rcases mem_pieces ho hn inside with rfl | ⟨key, rfl⟩
  · simp at entry
  rcases leaf_or_dicts (old.get key) (new.get key) with leaf | ⟨inner, other, left, right⟩
  · rw [part_placeDiff leaf, Option.mem_toList, Option.map_eq_some_iff] at entry
    obtain ⟨value, here, same⟩ := entry
    obtain ⟨rfl, rfl⟩ := Prod.mk.inj same
    exact ⟨[key], rfl, here⟩
  · rw [left, right, placeDiff_dict] at entry
    split at entry
    · simp at entry
    · have inner_json : (PyVal.dict inner).isJson = true := (left ▸ IsSlot.get ho key).dict
      have other_json : (PyVal.dict other).isJson = true := (right ▸ IsSlot.get hn key).dict
      obtain ⟨chain, path_eq, below⟩ := mem_part inner_json other_json entry
      refine ⟨key :: chain, path_eq, ?_⟩
      rw [reported, left, right]
      exact below
termination_by sizeOf old
decreasing_by exact Dict.sizeOf_lt_of_get left

/-- Every place with something to report has its path in the difference. -/
theorem mem_keys_part {old new : Dict} (ho : (PyVal.dict old).isJson = true)
    (hn : (PyVal.dict new).isJson = true) {part : Part} {v : PyVal} (path : String)
    {chain : List String} (report : reported part (.dict old) (.dict new) chain = some v) :
    joined path chain ∈ ((dictDiff old new path).part part).keys := by
  induction chain generalizing old new path with
  | nil => exact absurd rfl (reported_ne_nil report)
  | cons key rest ih =>
      rw [reported] at report
      have differ : ¬ pyEq (old.get key) (new.get key) = true := by
        intro same
        rw [reported_of_pyEq (.get ho key) (.get hn key) same] at report
        cases report
      have present : old.get key ≠ .sentinel ∨ new.get key ≠ .sentinel := by
        by_contra absent
        obtain ⟨left, right⟩ := not_or.mp absent
        exact differ (by rw [not_not.mp left, not_not.mp right]; rfl)
      refine mem_keys_part_of_piece (placeDiff_mem_pieces ho hn path present) ?_
      rcases leaf_or_dicts (old.get key) (new.get key) with leaf | ⟨inner, other, left, right⟩
      · cases rest with
        | nil =>
            have here : part.entry? (old.get key) (new.get key) = some v := report
            rw [part_placeDiff leaf, here]
            simp [Dict.keys, joined]
        | cons second rest =>
            rw [reported_leaf leaf] at report
            cases report
      · rw [left, right] at report differ
        rw [left, right, placeDiff_dict, if_neg differ]
        exact ih (left ▸ IsSlot.get ho key).dict (right ▸ IsSlot.get hn key).dict
          (joinPath path key) report

end YouMi.Mcp
