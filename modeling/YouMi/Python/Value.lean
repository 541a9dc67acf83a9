import YouMi.Library.OrderedDict
import Mathlib.Data.List.Perm.Subperm
import Mathlib.Data.List.Nodup
import Mathlib.Data.Rat.Defs
import Mathlib.Tactic.ByContra

/-!
# Python values and `==`

The values `json.loads` makes, and one marker object.  Dictionaries are entry
lists in insertion order; `get` reads a missing key as the marker, as
`d.get(key, marker)` does.  `==` compares numbers by value whatever their type
(`True == 1 == 1.0`) and dictionaries without regard to order.
-/

namespace YouMi.Python

open YouMi.Library

inductive PyVal where
  | null
  | bool (value : Bool)
  | int (value : Int)
  | float (value : Rat)
  | str (value : String)
  | list (items : List PyVal)
  | dict (entries : List (String × PyVal))
  /-- An `object()` used as a marker: equal to itself only. -/
  | sentinel

abbrev Dict := List (String × PyVal)

namespace Dict

def keys (d : Dict) : List String := d.map Prod.fst

/-- `d.get(key, marker)`. -/
def get (d : Dict) (key : String) : PyVal := (d.lookup key).getD .sentinel

/-- `d[key] = value`: an existing key keeps its place, a new one goes to the end. -/
def set (d : Dict) (key : String) (value : PyVal) : Dict :=
  if key ∈ d.keys then d.map fun entry => if entry.1 = key then (key, value) else entry
  else d ++ [(key, value)]

/-- `d.pop(key, None)`. -/
def pop (d : Dict) (key : String) : Dict := d.filter fun entry => entry.1 ≠ key

end Dict

namespace PyVal

def isDict : PyVal → Bool
  | .dict _ => true
  | _ => false

def isSentinel : PyVal → Bool
  | .sentinel => true
  | _ => false

def number? : PyVal → Option Rat
  | .bool value => some (if value then 1 else 0)
  | .int value => some value
  | .float value => some value
  | _ => none

mutual

/-- Python's `==`. -/
def pyEq : PyVal → PyVal → Bool
  | .null, .null => true
  | .str s, .str t => s == t
  | .list xs, .list ys => listEq xs ys
  | .dict xs, .dict ys => xs.length == ys.length && entriesIn xs ys
  | .sentinel, .sentinel => true
  | v, w =>
      match v.number?, w.number? with
      | some p, some q => p == q
      | _, _ => false

def listEq : List PyVal → List PyVal → Bool
  | [], [] => true
  | x :: xs, y :: ys => pyEq x y && listEq xs ys
  | _, _ => false

/-- Every entry of the first dictionary has an equal one in the second. -/
def entriesIn : Dict → Dict → Bool
  | [], _ => true
  | (key, v) :: rest, ys =>
      (match ys.lookup key with
        | some w => pyEq v w
        | none => false) && entriesIn rest ys

end

example : pyEq (.list [.int 1, .null]) (.list [.bool true, .null]) = true := by
  simp [pyEq, listEq, number?]

theorem listEq_iff {xs ys : List PyVal} :
    listEq xs ys = true ↔ List.Forall₂ (fun x y => pyEq x y = true) xs ys := by
  induction xs generalizing ys with
  | nil => cases ys <;> simp [listEq]
  | cons x xs ih => cases ys <;> simp [listEq, ih]

theorem entriesIn_iff {xs ys : Dict} :
    entriesIn xs ys = true ↔
      ∀ entry ∈ xs, ∃ w, ys.lookup entry.1 = some w ∧ pyEq entry.2 w = true := by
  induction xs with
  | nil => simp [entriesIn]
  | cons entry rest ih =>
      obtain ⟨key, v⟩ := entry
      rw [entriesIn, Bool.and_eq_true, ih, List.forall_mem_cons]
      cases ys.lookup key <;> simp

@[simp]
theorem pyEq_sentinel_left {w : PyVal} : pyEq .sentinel w = true ↔ w = .sentinel := by
  cases w <;> simp [pyEq, number?]

@[simp]
theorem pyEq_sentinel_right {v : PyVal} : pyEq v .sentinel = true ↔ v = .sentinel := by
  cases v <;> simp [pyEq, number?]

mutual

/-- A value `json.loads` can return: no marker in it, and no key twice in one dictionary. -/
def isJson : PyVal → Bool
  | .list items => listIsJson items
  | .dict entries => decide (entries.map Prod.fst).Nodup && entriesAreJson entries
  | .sentinel => false
  | _ => true

def listIsJson : List PyVal → Bool
  | [] => true
  | x :: xs => isJson x && listIsJson xs

def entriesAreJson : Dict → Bool
  | [] => true
  | (_, v) :: rest => isJson v && entriesAreJson rest

end

/-- A value as `json.loads` returns it. -/
structure JsonValue where
  value : PyVal
  json : value.isJson = true

/-- A dictionary as `json.loads` returns it. -/
structure JsonObject where
  entries : Dict
  json : (PyVal.dict entries).isJson = true

theorem listIsJson_iff {items : List PyVal} :
    listIsJson items = true ↔ ∀ v ∈ items, v.isJson = true := by
  induction items with
  | nil => simp [listIsJson]
  | cons v rest ih => simp [listIsJson, ih]

theorem entriesAreJson_iff {entries : Dict} :
    entriesAreJson entries = true ↔ ∀ entry ∈ entries, entry.2.isJson = true := by
  induction entries with
  | nil => simp [entriesAreJson]
  | cons entry rest ih =>
      obtain ⟨key, v⟩ := entry
      simp [entriesAreJson, ih]

theorem isJson_dict_iff {entries : Dict} :
    (PyVal.dict entries).isJson = true ↔
      (Dict.keys entries).Nodup ∧ ∀ entry ∈ entries, entry.2.isJson = true := by
  rw [isJson, Bool.and_eq_true, decide_eq_true_eq, entriesAreJson_iff]
  rfl

end PyVal

open PyVal

/-! ## Dictionary access -/

namespace Dict

variable {d : Dict} {key other : String} {value : PyVal}

theorem lookup_eq_some_of_mem (nodup : d.keys.Nodup) (member : (key, value) ∈ d) :
    d.lookup key = some value :=
  OrderedDict.lookup_eq_some_of_mem nodup member

theorem mem_of_lookup (found : d.lookup key = some value) : (key, value) ∈ d := by
  obtain ⟨before, after, rfl, _⟩ := List.lookup_eq_some_iff.mp found
  simp

theorem lookup_isSome_iff_mem_keys : (d.lookup key).isSome ↔ key ∈ d.keys :=
  OrderedDict.lookup_isSome_iff

theorem lookup_eq_none_iff_not_mem : d.lookup key = none ↔ key ∉ d.keys := by
  rw [← lookup_isSome_iff_mem_keys, Option.not_isSome_iff_eq_none]

theorem get_of_lookup (found : d.lookup key = some value) : d.get key = value := by
  rw [get, found]
  rfl

theorem get_of_not_mem (absent : key ∉ d.keys) : d.get key = .sentinel := by
  rw [get, lookup_eq_none_iff_not_mem.mpr absent]
  rfl

theorem mem_keys_of_get (present : d.get key ≠ .sentinel) : key ∈ d.keys := by
  by_contra absent
  exact present (get_of_not_mem absent)

theorem mem_of_get (present : d.get key ≠ .sentinel) : (key, d.get key) ∈ d := by
  obtain ⟨value, found⟩ := Option.isSome_iff_exists.mp
    (lookup_isSome_iff_mem_keys.mpr (mem_keys_of_get present))
  rw [get_of_lookup found]
  exact mem_of_lookup found

/-- A dictionary found under a key is smaller than the one it was found in. -/
theorem sizeOf_lt_of_get {inner : Dict} (found : d.get key = .dict inner) :
    sizeOf inner < sizeOf d := by
  have member : (key, d.get key) ∈ d := mem_of_get (by rw [found]; simp)
  have entry_lt := List.sizeOf_lt_of_mem member
  have inner_lt : sizeOf inner < sizeOf (key, d.get key) := by
    rw [found]
    simp only [Prod.mk.sizeOf_spec, PyVal.dict.sizeOf_spec]
    omega
  omega

/-- `set` and `pop` are the assignment and the removal of an ordered dictionary. -/
theorem set_eq_assign : d.set key value = OrderedDict.assign d key value := rfl

theorem pop_eq_erase : d.pop key = OrderedDict.erase d key := rfl

theorem nodup_keys_set (nodup : d.keys.Nodup) : (d.set key value).keys.Nodup := by
  rw [set_eq_assign]
  exact OrderedDict.nodup_keys_assign nodup

theorem nodup_keys_pop (nodup : d.keys.Nodup) : (d.pop key).keys.Nodup := by
  rw [pop_eq_erase]
  exact OrderedDict.nodup_keys_erase nodup

theorem lookup_set_self : (d.set key value).lookup key = some value := by
  rw [set_eq_assign]
  exact OrderedDict.lookup_assign_self

theorem lookup_set_ne (ne : other ≠ key) : (d.set key value).lookup other = d.lookup other := by
  rw [set_eq_assign]
  exact OrderedDict.lookup_assign_ne ne

theorem lookup_pop_self : (d.pop key).lookup key = none := by
  rw [pop_eq_erase]
  exact OrderedDict.lookup_erase_self

theorem lookup_pop_ne (ne : other ≠ key) : (d.pop key).lookup other = d.lookup other := by
  rw [pop_eq_erase]
  exact OrderedDict.lookup_erase_ne ne

theorem get_isJson_or_sentinel (json : (PyVal.dict d).isJson = true) (key : String) :
    (d.get key).isJson = true ∨ d.get key = .sentinel := by
  by_cases present : d.get key = .sentinel
  · exact .inr present
  · exact .inl ((isJson_dict_iff.mp json).2 _ (mem_of_get present))

theorem lookup_eq_none_iff_get (json : (PyVal.dict d).isJson = true) :
    d.lookup key = none ↔ d.get key = .sentinel := by
  constructor
  · intro absent
    rw [get, absent]
    rfl
  · intro marker
    cases found : d.lookup key with
    | none => rfl
    | some value =>
        have bad := (isJson_dict_iff.mp json).2 _ (mem_of_lookup found)
        rw [get_of_lookup found] at marker
        rw [marker] at bad
        cases bad

theorem lookup_eq_some_get (json : (PyVal.dict d).isJson = true) (present : d.get key ≠ .sentinel) :
    d.lookup key = some (d.get key) :=
  lookup_eq_some_of_mem (isJson_dict_iff.mp json).1 (mem_of_get present)

end Dict

end YouMi.Python
