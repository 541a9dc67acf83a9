import YouMi.Python.Equality

/-!
# Structured difference of dictionaries

`_dict_diff` reports what a new dictionary adds to, removes from and changes in
an old one, under dotted paths.  Dictionaries on both sides are compared inside.
-/

namespace YouMi.Mcp

open YouMi.Library YouMi.Python YouMi.Python.PyVal

structure DictDiff where
  added : Dict
  removed : Dict
  changed : Dict

def joinPath (front key : String) : String :=
  if front = "" then key else front ++ "." ++ key

/-- `d.update(more)`. -/
def update (d more : Dict) : Dict := more.foldl (fun state entry => state.set entry.1 entry.2) d

theorem mem_update {d more : Dict} {entry : String × PyVal} (member : entry ∈ update d more) :
    entry ∈ d ∨ entry ∈ more := by
  induction more generalizing d with
  | nil => exact .inl member
  | cons first rest ih =>
      rcases ih member with before | later
      · rcases OrderedDict.mem_assign before with rfl | before
        · exact .inr List.mem_cons_self
        · exact .inl before
      · exact .inr (List.mem_cons_of_mem _ later)

theorem mem_keys_update {d more : Dict} {key : String} :
    key ∈ (update d more).keys ↔ key ∈ d.keys ∨ key ∈ more.keys := by
  induction more generalizing d with
  | nil => simp [update, Dict.keys]
  | cons first rest ih =>
      have assigned : key ∈ (d.set first.1 first.2).keys ↔ key = first.1 ∨ key ∈ d.keys :=
        OrderedDict.mem_keys_assign
      have split : key ∈ Dict.keys (first :: rest) ↔ key = first.1 ∨ key ∈ Dict.keys rest := by
        simp [Dict.keys]
      have tail : update d (first :: rest) = update (d.set first.1 first.2) rest := rfl
      rw [tail, ih, assigned, split]
      tauto

theorem nodup_keys_update {d : Dict} (more : Dict) (nodup : d.keys.Nodup) :
    (update d more).keys.Nodup := by
  induction more generalizing d with
  | nil => exact nodup
  | cons first rest ih => exact ih (Dict.nodup_keys_set nodup)

theorem lookup_update {d more : Dict} (distinct : more.keys.Nodup) (key : String) :
    (update d more).lookup key = (more.lookup key).or (d.lookup key) := by
  have assigned := OrderedDict.lookup_foldl_assign more Prod.snd distinct d key
  cases found : more.lookup key with
  | some value =>
      rw [found] at assigned
      exact assigned
  | none =>
      rw [found] at assigned
      exact assigned

/-- `_dict_diff`: first the keys of the old dictionary, then those of the new one. -/
def dictDiff (old new : Dict) (path : String) : DictDiff :=
  let compared := old.attach.foldl
    (fun (state : DictDiff) entry =>
      let key := entry.1.1
      match new.lookup key with
      | none => { state with removed := state.removed.set (joinPath path key) entry.1.2 }
      | some value =>
          if pyEq entry.1.2 value then state
          else
            match _found : entry.1.2, value with
            | .dict inner, .dict other =>
                let sub := dictDiff inner other (joinPath path key)
                ⟨update state.added sub.added, update state.removed sub.removed,
                  update state.changed sub.changed⟩
            | _, _ =>
                { state with
                  changed := state.changed.set (joinPath path key) (.list [entry.1.2, value]) })
    ⟨[], [], []⟩
  new.foldl
    (fun state entry =>
      if (old.lookup entry.1).isSome then state
      else { state with added := state.added.set (joinPath path entry.1) entry.2 })
    compared
termination_by sizeOf old
decreasing_by
  have inside := List.sizeOf_lt_of_mem entry.2
  have below : sizeOf inner < sizeOf entry.1 := by
    obtain ⟨⟨key, v⟩, member⟩ := entry
    dsimp only at _found
    subst _found
    simp only [Prod.mk.sizeOf_spec, PyVal.dict.sizeOf_spec]
    omega
  omega

end YouMi.Mcp
