import Mathlib.Data.List.Nodup

/-!
# Dictionaries in insertion order

Lists of entries in which every key stands once.  An assignment keeps the place of
a key that is there and puts a new one at the end.
-/

namespace YouMi.Library

variable {κ α : Type*} [DecidableEq κ]

abbrev OrderedDict (κ α : Type*) := List (κ × α)

namespace OrderedDict

def keys (d : OrderedDict κ α) : List κ := d.map Prod.fst

/-- `d[key] = value`. -/
def assign (d : OrderedDict κ α) (key : κ) (value : α) : OrderedDict κ α :=
  if key ∈ d.keys then d.map fun entry => if entry.1 = key then (key, value) else entry
  else d ++ [(key, value)]

/-- `d.pop(key, None)`. -/
def erase (d : OrderedDict κ α) (key : κ) : OrderedDict κ α :=
  d.filter fun entry => entry.1 ≠ key

variable {d : OrderedDict κ α} {key other : κ} {value : α}

theorem lookup_isSome_iff : (d.lookup key).isSome ↔ key ∈ d.keys := by
  induction d with
  | nil => simp [keys]
  | cons entry rest ih =>
      obtain ⟨first, v⟩ := entry
      rw [List.lookup_cons]
      by_cases same : key = first
      · simp [same, keys]
      · rw [beq_false_of_ne same]
        simp [keys, same]

theorem lookup_eq_none_iff : d.lookup key = none ↔ key ∉ d.keys := by
  rw [← lookup_isSome_iff, Option.not_isSome_iff_eq_none]

theorem lookup_eq_some_of_mem (distinct : d.keys.Nodup) (member : (key, value) ∈ d) :
    d.lookup key = some value := by
  induction d with
  | nil => exact absurd member List.not_mem_nil
  | cons entry rest ih =>
      obtain ⟨first, v⟩ := entry
      obtain ⟨absent, distinct⟩ := List.nodup_cons.mp distinct
      rw [List.lookup_cons]
      rcases List.mem_cons.mp member with same | later
      · obtain ⟨rfl, rfl⟩ := Prod.mk.inj same
        simp
      · have isKey : key ∈ keys rest := List.mem_map_of_mem (f := Prod.fst) later
        have ne : key ≠ first := fun same => absent (same ▸ isKey)
        rw [beq_false_of_ne ne]
        exact ih distinct later

theorem mem_of_lookup (found : d.lookup key = some value) : (key, value) ∈ d := by
  induction d with
  | nil => cases found
  | cons entry rest ih =>
      obtain ⟨first, v⟩ := entry
      rw [List.lookup_cons] at found
      by_cases same : key = first
      · subst same
        simp only [beq_self_eq_true, Option.some.injEq] at found
        rw [found]
        exact List.mem_cons_self
      · rw [beq_false_of_ne same] at found
        exact List.mem_cons_of_mem _ (ih found)

/-- Dropping entries drops what they held. -/
theorem lookup_filter (distinct : d.keys.Nodup) (keep : κ × α → Bool) :
    (d.filter keep).lookup key = (d.lookup key).filter fun value => keep (key, value) := by
  induction d with
  | nil => rfl
  | cons entry rest ih =>
      obtain ⟨first, v⟩ := entry
      obtain ⟨absent, later⟩ := List.nodup_cons.mp distinct
      rw [List.filter_cons, List.lookup_cons]
      by_cases same : key = first
      · subst same
        have missing : rest.lookup key = none := lookup_eq_none_iff.mpr absent
        cases kept : keep (key, v) with
        | true => simp [Option.filter, kept]
        | false => simp [Option.filter, kept, ih later, missing]
      · rw [beq_false_of_ne same]
        split
        · rw [List.lookup_cons, beq_false_of_ne same]
          exact ih later
        · exact ih later

theorem lookup_map_entries {β : Type*} (d : OrderedDict κ α) (f : κ → α → β) (key : κ) :
    (d.map fun entry => (entry.1, f entry.1 entry.2)).lookup key =
      (d.lookup key).map (f key) := by
  induction d with
  | nil => rfl
  | cons entry rest ih =>
      rw [List.map_cons, List.lookup_cons, List.lookup_cons]
      by_cases same : key = entry.1
      · simp [same]
      · rw [beq_false_of_ne same]
        exact ih

theorem lookup_map_values {β : Type*} (d : OrderedDict κ α) (f : α → β) (key : κ) :
    (d.map fun entry => (entry.1, f entry.2)).lookup key = (d.lookup key).map f :=
  lookup_map_entries d (fun _ => f) key

theorem mem_assign {entry : κ × α} (member : entry ∈ d.assign key value) :
    entry = (key, value) ∨ entry ∈ d := by
  unfold assign at member
  split at member
  · obtain ⟨old, before, same⟩ := List.mem_map.mp member
    split at same
    · exact .inl same.symm
    · exact .inr (same ▸ before)
  · rcases List.mem_append.mp member with before | now
    · exact .inr before
    · exact .inl (List.mem_singleton.mp now)

theorem lookup_map_assign (d : OrderedDict κ α) (key : κ) (value : α) (k : κ) :
    (d.map fun entry => if entry.1 = key then (key, value) else entry).lookup k =
      if k = key then (d.lookup k).map fun _ => value else d.lookup k := by
  induction d with
  | nil => simp
  | cons entry rest ih =>
      obtain ⟨first, v⟩ := entry
      rw [List.map_cons, List.lookup_cons, List.lookup_cons]
      by_cases same : first = key
      · subst same
        by_cases hit : k = first
        · simp [hit]
        · simp [hit, ih, beq_false_of_ne hit]
      · by_cases hit : k = first
        · subst hit
          simp [same]
        · simp [same, beq_false_of_ne hit, ih]

@[simp]
theorem lookup_assign_self : (d.assign key value).lookup key = some value := by
  unfold assign
  split
  · rename_i present
    rw [lookup_map_assign, if_pos rfl]
    obtain ⟨old, found⟩ := Option.isSome_iff_exists.mp (lookup_isSome_iff.mpr present)
    rw [found]
    rfl
  · rename_i absent
    rw [List.lookup_append, lookup_eq_none_iff.mpr absent]
    simp

theorem lookup_assign_ne (ne : other ≠ key) :
    (d.assign key value).lookup other = d.lookup other := by
  unfold assign
  split
  · rw [lookup_map_assign, if_neg ne]
  · rw [List.lookup_append, List.lookup_cons, beq_false_of_ne ne]
    exact Option.or_none

theorem lookup_assign :
    (d.assign key value).lookup other = if other = key then some value else d.lookup other := by
  split
  · rename_i same
    rw [same]
    exact lookup_assign_self
  · rename_i ne
    exact lookup_assign_ne ne

/-- Replacing a value changes it where it stands. -/
theorem lookup_assign_of_lookup (found : d.lookup key = some value) (change : α → α) :
    (d.assign key (change value)).lookup other =
      (d.lookup other).map fun value => if other = key then change value else value := by
  rw [lookup_assign]
  by_cases same : other = key
  · simp [same, found]
  · simp [same]

/-- A change to what is not there changes nothing. -/
theorem map_lookup_of_lookup_eq_none (absent : d.lookup key = none) (change : α → α)
    (other : κ) :
    ((d.lookup other).map fun value => if other = key then change value else value) =
      d.lookup other := by
  by_cases same : other = key
  · simp [same, absent]
  · simp [same]

theorem keys_assign :
    (d.assign key value).keys = if key ∈ d.keys then d.keys else d.keys ++ [key] := by
  unfold assign
  split
  · unfold keys
    rw [List.map_map]
    apply List.map_congr_left
    intro entry _
    by_cases same : entry.1 = key <;> simp [same]
  · simp [keys]

/-- The assignment of the value that is there. -/
theorem assign_of_lookup (distinct : d.keys.Nodup) (found : d.lookup key = some value) :
    d.assign key value = d := by
  have present : key ∈ d.keys := lookup_isSome_iff.mp (by rw [found]; rfl)
  unfold assign
  rw [if_pos present]
  refine (List.map_congr_left fun entry member => ?_).trans (List.map_id d)
  split
  · rename_i same
    have here : d.lookup key = some entry.2 :=
      lookup_eq_some_of_mem distinct (by rw [← same]; exact member)
    rw [found] at here
    rw [Option.some.inj here, ← same]
    rfl
  · rfl

theorem assign_append_singleton (fresh : key ∉ d.keys) (old : α) :
    (d ++ [(key, old)]).assign key value = d ++ [(key, value)] := by
  unfold assign
  rw [if_pos (by simp [keys]), List.map_append]
  congr 1
  · refine (List.map_congr_left fun entry member => if_neg fun same => fresh ?_).trans
      (List.map_id d)
    exact same ▸ List.mem_map_of_mem (f := Prod.fst) member
  · simp

/-- An assignment to a key that is there exchanges one value for another. -/
theorem length_filter_assign (distinct : d.keys.Nodup) {old : α} (found : d.lookup key = some old)
    (keep : κ × α → Bool) :
    ((d.assign key value).filter keep).length + (if keep (key, old) then 1 else 0) =
      (d.filter keep).length + if keep (key, value) then 1 else 0 := by
  have present : key ∈ d.keys := lookup_isSome_iff.mp (by rw [found]; rfl)
  unfold assign
  rw [if_pos present]
  clear present
  induction d with
  | nil => cases found
  | cons entry rest ih =>
      obtain ⟨absent, distinct⟩ := List.nodup_cons.mp distinct
      rw [List.map_cons, List.filter_cons, List.filter_cons]
      by_cases here : entry.1 = key
      · subst here
        rw [List.lookup_cons_self] at found
        cases found
        have unchanged : rest.map (fun other =>
            if other.1 = entry.1 then (entry.1, value) else other) = rest := by
          refine (List.map_congr_left fun other member => if_neg fun same => absent ?_).trans
            (List.map_id rest)
          exact same ▸ List.mem_map_of_mem (f := Prod.fst) member
        rw [if_pos rfl, unchanged]
        split <;> split <;> simp only [List.length_cons]
      · rw [List.lookup_cons, beq_eq_false_iff_ne.mpr (Ne.symm here)] at found
        have others := ih distinct found
        rw [if_neg here]
        split
        · simp only [List.length_cons]
          omega
        · exact others

theorem nodup_keys_assign (distinct : d.keys.Nodup) : (d.assign key value).keys.Nodup := by
  rw [keys_assign]
  split
  · exact distinct
  · rename_i absent
    refine List.nodup_append.mpr ⟨distinct, List.nodup_singleton key, ?_⟩
    intro k hk k' hk' same
    rw [List.mem_singleton.mp hk'] at same
    exact absent (same ▸ hk)

theorem nodup_keys_erase (distinct : d.keys.Nodup) : (d.erase key).keys.Nodup :=
  distinct.sublist (List.filter_sublist.map Prod.fst)

theorem lookup_erase_self : (d.erase key).lookup key = none := by
  rw [lookup_eq_none_iff, keys, List.mem_map]
  rintro ⟨entry, member, same⟩
  simp [erase, same] at member

theorem lookup_erase_ne (ne : other ≠ key) : (d.erase key).lookup other = d.lookup other := by
  induction d with
  | nil => rfl
  | cons entry rest ih =>
      obtain ⟨k, v⟩ := entry
      unfold erase at ih ⊢
      by_cases drop : k = key
      · subst drop
        rw [List.filter_cons_of_neg (by simp), List.lookup_cons, beq_false_of_ne ne]
        exact ih
      · rw [List.filter_cons_of_pos (by simpa using drop), List.lookup_cons, List.lookup_cons, ih]

theorem lookup_erase :
    (d.erase key).lookup other = if other = key then none else d.lookup other := by
  split
  · rename_i same
    rw [same]
    exact lookup_erase_self
  · rename_i ne
    exact lookup_erase_ne ne

/-- The keys of a list that are assigned one after another have their values. -/
theorem lookup_foldl_assign {β : Type*} (items : OrderedDict κ β) (value : κ × β → α)
    (distinct : items.keys.Nodup) (d : OrderedDict κ α) (key : κ) :
    (items.foldl (fun d item => d.assign item.1 (value item)) d).lookup key =
      match items.lookup key with
      | some given => some (value (key, given))
      | none => d.lookup key := by
  induction items generalizing d with
  | nil => rfl
  | cons item rest ih =>
      obtain ⟨first, given⟩ := item
      obtain ⟨absent, distinct⟩ := List.nodup_cons.mp distinct
      rw [List.foldl_cons, ih distinct, List.lookup_cons]
      by_cases same : key = first
      · subst same
        have later : rest.lookup key = none := lookup_eq_none_iff.mpr absent
        simp [later]
      · rw [beq_false_of_ne same, lookup_assign_ne same]

/-- Assigned one after another, entries of new keys are put at the end. -/
theorem foldl_assign_append (items d : OrderedDict κ α) (distinct : (d ++ items).keys.Nodup) :
    items.foldl (fun d item => d.assign item.1 item.2) d = d ++ items := by
  induction items generalizing d with
  | nil => exact (List.append_nil d).symm
  | cons item rest ih =>
      have absent : item.1 ∉ d.keys := by
        intro present
        rw [keys, List.map_append, List.nodup_append] at distinct
        exact distinct.2.2 item.1 present item.1 (by simp) rfl
      have put : d.assign item.1 item.2 = d ++ [item] := by
        unfold assign
        rw [if_neg absent]
      rw [List.foldl_cons, put, ih _ (by simpa using distinct), List.append_assoc,
        List.singleton_append]

/-- A list of keys that are all given one value. -/
theorem lookup_foldl_assign_const (given : List κ) (value : α) (d : OrderedDict κ α) (key : κ) :
    (given.foldl (fun d name => d.assign name value) d).lookup key =
      if key ∈ given then some value else d.lookup key := by
  induction given generalizing d with
  | nil => rfl
  | cons first rest ih =>
      rw [List.foldl_cons, ih, lookup_assign]
      by_cases later : key ∈ rest
      · simp [later]
      · simp [later]

theorem lookup_foldl_erase (given : List κ) (d : OrderedDict κ α) (key : κ) :
    (given.foldl erase d).lookup key = if key ∈ given then none else d.lookup key := by
  induction given generalizing d with
  | nil => rfl
  | cons first rest ih =>
      rw [List.foldl_cons, ih, lookup_erase]
      by_cases later : key ∈ rest
      · simp [later]
      · simp [later]

theorem keys_erase : (d.erase key).keys = d.keys.filter (· ≠ key) := by
  unfold keys erase
  rw [List.filter_map]
  rfl

theorem mem_keys_assign : other ∈ (d.assign key value).keys ↔ other = key ∨ other ∈ d.keys := by
  rw [← lookup_isSome_iff, ← lookup_isSome_iff, lookup_assign]
  by_cases same : other = key
  · simp [same]
  · simp [same]

theorem mem_keys_erase : other ∈ (d.erase key).keys ↔ other ≠ key ∧ other ∈ d.keys := by
  rw [keys_erase, List.mem_filter, and_comm]
  simp

/-! ## Some of the entries -/

/-- Keeping the entries of some keys commutes with an assignment to one of them. -/
theorem filter_assign_of_kept {keep : κ → Bool} (kept : keep key = true) :
    (d.assign key value).filter (fun entry => keep entry.1) =
      (OrderedDict.assign (d.filter fun entry => keep entry.1) key value) := by
  unfold assign
  have keys_iff : key ∈ keys (d.filter fun entry => keep entry.1) ↔ key ∈ d.keys := by
    simp [keys, kept]
  by_cases present : key ∈ d.keys
  · rw [if_pos present, if_pos (keys_iff.mpr present), List.filter_map]
    congr 1
    refine List.filter_congr fun entry _ => ?_
    by_cases same : entry.1 = key
    · simp [same]
    · simp [same]
  · rw [if_neg present, if_neg (mt keys_iff.mp present), List.filter_append]
    congr 1
    simp [kept]

/-- An assignment to another key is not seen. -/
theorem filter_assign_of_other {keep : κ → Bool} (other : keep key = false) :
    (d.assign key value).filter (fun entry => keep entry.1) =
      d.filter fun entry => keep entry.1 := by
  have unseen (entries : OrderedDict κ α) :
      (entries.map fun entry => if entry.1 = key then (key, value) else entry).filter
          (fun entry => keep entry.1) = entries.filter fun entry => keep entry.1 := by
    induction entries with
    | nil => rfl
    | cons entry rest ih =>
        by_cases same : entry.1 = key
        · simp [same, other, ih]
        · simp [same, List.filter_cons, ih]
  unfold assign
  split
  · exact unseen d
  · rw [List.filter_append]
    simp [other]

theorem filter_erase {keep : κ → Bool} :
    (d.erase key).filter (fun entry => keep entry.1) =
      (OrderedDict.erase (d.filter fun entry => keep entry.1) key) := by
  unfold erase
  rw [List.filter_filter, List.filter_filter]
  refine List.filter_congr fun entry _ => ?_
  exact Bool.and_comm _ _

theorem erase_eq_self (absent : key ∉ d.keys) : d.erase key = d := by
  refine List.filter_eq_self.mpr fun entry member => decide_eq_true fun same => absent ?_
  exact same ▸ List.mem_map_of_mem (f := Prod.fst) member

/-- A change to every value commutes with an assignment. -/
theorem map_assign {β : Type*} (f : κ → α → β) :
    (d.assign key value).map (fun entry => (entry.1, f entry.1 entry.2)) =
      OrderedDict.assign (d.map fun entry => (entry.1, f entry.1 entry.2)) key (f key value) := by
  have same : keys (d.map fun entry => (entry.1, f entry.1 entry.2)) = d.keys := by simp [keys]
  unfold assign
  rw [same]
  split
  · rw [List.map_map, List.map_map]
    refine List.map_congr_left fun entry _ => ?_
    by_cases here : entry.1 = key
    · simp [here]
    · simp [here]
  · simp

/-- The entries of some keys, in the order of these keys. -/
def pick (fields : List κ) (d : OrderedDict κ α) : OrderedDict κ α :=
  fields.filterMap fun field => (d.lookup field).map fun value => (field, value)

theorem lookup_pick (fields : List κ) (d : OrderedDict κ α) (key : κ) :
    (d.pick fields).lookup key = if key ∈ fields then d.lookup key else none := by
  induction fields with
  | nil => rfl
  | cons field rest ih =>
      unfold pick at ih ⊢
      rw [List.filterMap_cons]
      by_cases same : key = field
      · subst same
        cases found : d.lookup key with
        | none => simp [ih, found]
        | some value => simp
      · cases d.lookup field with
        | none => simp [ih, same]
        | some value => simp [ih, same, beq_false_of_ne same, List.lookup_cons]

theorem pick_congr {fields : List κ} {first second : OrderedDict κ α}
    (same : ∀ field ∈ fields, first.lookup field = second.lookup field) :
    first.pick fields = second.pick fields :=
  List.filterMap_congr fun field member => congrArg _ (same field member)

/-- What has been picked is picked again as it is. -/
theorem pick_pick (fields : List κ) (d : OrderedDict κ α) :
    (d.pick fields).pick fields = d.pick fields :=
  pick_congr fun field member => (lookup_pick fields d field).trans (if_pos member)

/-! ## Items gathered by key -/

section Gather

variable {ι : Type*} (key : ι → κ) (start : α) (add : α → ι → α)

/-- The item is added to the value under its key, which begins with `start`. -/
def gather (d : OrderedDict κ α) (item : ι) : OrderedDict κ α :=
  d.assign (key item) (add ((d.lookup (key item)).getD start) item)

/-- Under each key the items of that key are added up in their order. -/
theorem lookup_foldl_gather (items : List ι) (d : OrderedDict κ α) (k : κ) :
    ((items.foldl (gather key start add) d).lookup k).getD start =
      (items.filter fun item => key item = k).foldl add ((d.lookup k).getD start) := by
  induction items generalizing d with
  | nil => rfl
  | cons item rest ih =>
      rw [List.foldl_cons, ih, gather, lookup_assign]
      by_cases same : k = key item
      · rw [if_pos same, List.filter_cons_of_pos (by simp [same]), List.foldl_cons, same,
          Option.getD_some]
      · rw [if_neg same, List.filter_cons_of_neg (by simpa using Ne.symm same)]

theorem mem_keys_foldl_gather (items : List ι) (d : OrderedDict κ α) (k : κ) :
    k ∈ (items.foldl (gather key start add) d).keys ↔
      k ∈ d.keys ∨ ∃ item ∈ items, key item = k := by
  induction items generalizing d with
  | nil => simp
  | cons item rest ih =>
      rw [List.foldl_cons, ih, gather, mem_keys_assign, List.exists_mem_cons_iff, or_assoc,
        or_left_comm, eq_comm (a := k)]

theorem nodup_keys_foldl_gather (items : List ι) {d : OrderedDict κ α}
    (distinct : d.keys.Nodup) : (items.foldl (gather key start add) d).keys.Nodup := by
  induction items generalizing d with
  | nil => exact distinct
  | cons item rest ih => exact ih (nodup_keys_assign distinct)

end Gather

end OrderedDict

end YouMi.Library
