import YouMi.Python.Value

/-!
# `==` is an equivalence on JSON values

Two dictionaries are equal exactly when `get` gives equal values for every key,
a missing key counting as a value of its own.  From this, equality is reflexive,
symmetric and transitive on everything `get` can return for a JSON dictionary.
-/

namespace YouMi.Python

namespace PyVal

/-- What `get` returns for a JSON dictionary: a JSON value or the marker. -/
def IsSlot (v : PyVal) : Prop := v.isJson = true ∨ v = .sentinel

theorem IsSlot.get {d : Dict} (json : (PyVal.dict d).isJson = true) (key : String) :
    IsSlot (d.get key) := Dict.get_isJson_or_sentinel json key

theorem isSentinel_eq_false {v : PyVal} (present : v ≠ .sentinel) : v.isSentinel = false := by
  cases v with
  | sentinel => exact absurd rfl present
  | _ => rfl

theorem isSentinel_of_isJson {v : PyVal} (json : v.isJson = true) : v.isSentinel = false := by
  cases v with
  | sentinel => cases json
  | _ => rfl

theorem eq_sentinel {v : PyVal} (marker : v.isSentinel = true) : v = .sentinel := by
  cases v with
  | sentinel => rfl
  | _ => cases marker

theorem isJson_of_slot {v : PyVal} (slot : IsSlot v) (present : v ≠ .sentinel) :
    v.isJson = true :=
  slot.resolve_right present

theorem IsSlot.dict {d : Dict} (slot : IsSlot (.dict d)) : (PyVal.dict d).isJson = true :=
  isJson_of_slot slot (by simp)

/-! ## What a value is equal to -/

theorem pyEq_null_left {w : PyVal} : pyEq .null w = true ↔ w = .null := by
  cases w <;> simp [pyEq, number?]

theorem pyEq_str_left {s : String} {w : PyVal} : pyEq (.str s) w = true ↔ w = .str s := by
  cases w with
  | str t =>
      rw [pyEq, beq_iff_eq, PyVal.str.injEq]
      exact eq_comm
  | _ => simp [pyEq, number?]

theorem pyEq_list_left {xs : List PyVal} {w : PyVal} :
    pyEq (.list xs) w = true ↔
      ∃ ys, w = .list ys ∧ List.Forall₂ (fun x y => pyEq x y = true) xs ys := by
  cases w <;> simp [pyEq, number?, listEq_iff]

theorem pyEq_dict_left {d : Dict} {w : PyVal} (eq : pyEq (.dict d) w = true) :
    ∃ e : Dict, w = .dict e := by
  cases w <;> simp_all [pyEq, number?]

theorem pyEq_dict_right {d : Dict} {v : PyVal} (eq : pyEq v (.dict d) = true) :
    ∃ e : Dict, v = .dict e := by
  cases v <;> simp_all [pyEq, number?]

theorem pyEq_number_left {v w : PyVal} {p : Rat} (number : v.number? = some p) :
    pyEq v w = true ↔ w.number? = some p := by
  have compared : pyEq v w = (w.number? == some p) := by
    cases v <;> cases number <;> cases w <;> simp [pyEq, number?, BEq.comm]
  rw [compared, beq_iff_eq]

/-- Equal dictionaries are those that `get` cannot tell apart. -/
theorem pyEq_dict_iff {a b : Dict} (ha : (PyVal.dict a).isJson = true)
    (hb : (PyVal.dict b).isJson = true) :
    pyEq (.dict a) (.dict b) = true ↔ ∀ key, pyEq (a.get key) (b.get key) = true := by
  obtain ⟨nodupA, valuesA⟩ := isJson_dict_iff.mp ha
  obtain ⟨nodupB, _⟩ := isJson_dict_iff.mp hb
  have unfolded : pyEq (.dict a) (.dict b) = true ↔
      a.length = b.length ∧ entriesIn a b = true := by simp [pyEq]
  rw [unfolded]
  constructor
  · rintro ⟨lengths, included⟩ key
    have keys_sub : a.keys ⊆ b.keys := by
      intro k hk
      obtain ⟨entry, member, rfl⟩ := List.mem_map.mp hk
      obtain ⟨w, found, _⟩ := entriesIn_iff.mp included entry member
      exact Dict.lookup_isSome_iff_mem_keys.mp (by rw [found]; rfl)
    by_cases inA : key ∈ a.keys
    · obtain ⟨⟨k, v⟩, member, rfl⟩ := List.mem_map.mp inA
      obtain ⟨w, found, eq⟩ := entriesIn_iff.mp included _ member
      rw [Dict.get_of_lookup (Dict.lookup_eq_some_of_mem nodupA member), Dict.get_of_lookup found]
      exact eq
    · -- The keys of `a` are distinct and as many as those of `b`, so `b` has no others.
      have perm : a.keys.Perm b.keys :=
        (nodupA.subperm keys_sub).perm_of_length_le (by simp [Dict.keys, lengths])
      have notB : key ∉ b.keys := fun inB => inA (perm.mem_iff.mpr inB)
      rw [Dict.get_of_not_mem inA, Dict.get_of_not_mem notB]
      rfl
  · intro same
    have mem_iff : ∀ key, key ∈ a.keys ↔ key ∈ b.keys := by
      intro key
      constructor
      · intro inA
        by_contra notB
        have eq := same key
        rw [Dict.get_of_not_mem notB, pyEq_sentinel_right] at eq
        have absent := (Dict.lookup_eq_none_iff_get ha).mpr eq
        exact Dict.lookup_eq_none_iff_not_mem.mp absent inA
      · intro inB
        by_contra notA
        have eq := same key
        rw [Dict.get_of_not_mem notA, pyEq_sentinel_left] at eq
        have absent := (Dict.lookup_eq_none_iff_get hb).mpr eq
        exact Dict.lookup_eq_none_iff_not_mem.mp absent inB
    have perm : a.keys.Perm b.keys := (List.perm_ext_iff_of_nodup nodupA nodupB).mpr mem_iff
    refine ⟨by simpa [Dict.keys] using perm.length_eq, entriesIn_iff.mpr ?_⟩
    rintro ⟨key, v⟩ member
    have eq := same key
    rw [Dict.get_of_lookup (Dict.lookup_eq_some_of_mem nodupA member)] at eq
    have json : v.isJson = true := valuesA _ member
    have present : b.get key ≠ .sentinel := by
      intro marker
      rw [marker, pyEq_sentinel_right] at eq
      rw [eq] at json
      cases json
    exact ⟨b.get key, Dict.lookup_eq_some_get hb present, eq⟩

/-! ## Reflexivity, symmetry and transitivity -/

theorem sizeOf_get_lt (d : Dict) (key : String) :
    sizeOf (d.get key) < sizeOf (PyVal.dict d) := by
  simp only [PyVal.dict.sizeOf_spec]
  by_cases present : d.get key = .sentinel
  · have positive : 0 < sizeOf d := by
      cases d with
      | nil => simp
      | cons first rest => rw [List.cons.sizeOf_spec]; omega
    rw [present, PyVal.sentinel.sizeOf_spec]
    omega
  · have entry_lt := List.sizeOf_lt_of_mem (Dict.mem_of_get present)
    simp only [Prod.mk.sizeOf_spec] at entry_lt
    omega

private theorem sizeOf_item_lt {items : List PyVal} {v : PyVal} (member : v ∈ items) :
    sizeOf v < sizeOf (PyVal.list items) := by
  have item_lt := List.sizeOf_lt_of_mem member
  simp only [PyVal.list.sizeOf_spec]
  omega

private theorem items_json {items : List PyVal} (json : (PyVal.list items).isJson = true) :
    ∀ v ∈ items, v.isJson = true :=
  listIsJson_iff.mp (by simpa [isJson] using json)

/-- Where one of two equal slots is filled, so is the other. -/
private theorem present_of_pyEq {v w : PyVal} (present : v ≠ .sentinel)
    (eq : pyEq v w = true) : w ≠ .sentinel := by
  rintro rfl
  exact present (pyEq_sentinel_right.mp eq)

theorem pyEq_refl_json (v : PyVal) (json : v.isJson = true) : pyEq v v = true := by
  match v, json with
  | .null, _ => rfl
  | .bool value, _ => exact (pyEq_number_left rfl).mpr rfl
  | .int value, _ => exact (pyEq_number_left rfl).mpr rfl
  | .float value, _ => exact (pyEq_number_left rfl).mpr rfl
  | .str value, _ => exact pyEq_str_left.mpr rfl
  | .list items, json =>
      refine pyEq_list_left.mpr ⟨items, rfl, List.forall₂_same.mpr fun x member => ?_⟩
      exact pyEq_refl_json x (items_json json x member)
  | .dict entries, json =>
      rw [pyEq_dict_iff json json]
      intro key
      by_cases present : Dict.get entries key = .sentinel
      · rw [present]
        rfl
      · exact pyEq_refl_json _ (isJson_of_slot (IsSlot.get json key) present)
termination_by sizeOf v
decreasing_by
  · exact sizeOf_item_lt member
  · exact sizeOf_get_lt _ _

theorem pyEq_symm_json (v w : PyVal) (hv : v.isJson = true) (hw : w.isJson = true)
    (eq : pyEq v w = true) : pyEq w v = true := by
  match v, hv with
  | .null, _ => rw [pyEq_null_left.mp eq]; rfl
  | .bool value, _ => exact (pyEq_number_left ((pyEq_number_left rfl).mp eq)).mpr rfl
  | .int value, _ => exact (pyEq_number_left ((pyEq_number_left rfl).mp eq)).mpr rfl
  | .float value, _ => exact (pyEq_number_left ((pyEq_number_left rfl).mp eq)).mpr rfl
  | .str value, _ =>
      obtain rfl := pyEq_str_left.mp eq
      exact eq
  | .list xs, hv =>
      obtain ⟨ys, rfl, all⟩ := pyEq_list_left.mp eq
      refine pyEq_list_left.mpr ⟨xs, rfl, List.forall₂_iff_get.mpr ⟨all.length_eq.symm, ?_⟩⟩
      intro i hy hx
      exact pyEq_symm_json _ _ (items_json hv _ (List.get_mem _ _))
        (items_json hw _ (List.get_mem _ _)) ((List.forall₂_iff_get.mp all).2 i hx hy)
  | .dict xs, hv =>
      obtain ⟨ys, rfl⟩ := pyEq_dict_left eq
      rw [pyEq_dict_iff hw hv]
      rw [pyEq_dict_iff hv hw] at eq
      intro key
      have here := eq key
      by_cases present : Dict.get xs key = .sentinel
      · rw [present, pyEq_sentinel_left] at here
        rw [present, here]
        rfl
      · exact pyEq_symm_json _ _ (isJson_of_slot (IsSlot.get hv key) present)
          (isJson_of_slot (IsSlot.get hw key) (present_of_pyEq present here)) here
termination_by sizeOf v
decreasing_by
  · exact sizeOf_item_lt (List.get_mem _ _)
  · exact sizeOf_get_lt _ _

theorem pyEq_trans_json (u v w : PyVal) (hu : u.isJson = true) (hv : v.isJson = true)
    (hw : w.isJson = true) (first : pyEq u v = true) (second : pyEq v w = true) :
    pyEq u w = true := by
  match u, hu with
  | .null, _ => rw [pyEq_null_left.mp first] at second; exact second
  | .bool value, _ =>
      exact (pyEq_number_left rfl).mpr ((pyEq_number_left ((pyEq_number_left rfl).mp first)).mp second)
  | .int value, _ =>
      exact (pyEq_number_left rfl).mpr ((pyEq_number_left ((pyEq_number_left rfl).mp first)).mp second)
  | .float value, _ =>
      exact (pyEq_number_left rfl).mpr ((pyEq_number_left ((pyEq_number_left rfl).mp first)).mp second)
  | .str value, _ => rw [pyEq_str_left.mp first] at second; exact second
  | .list xs, hu =>
      obtain ⟨ys, rfl, one⟩ := pyEq_list_left.mp first
      obtain ⟨zs, rfl, two⟩ := pyEq_list_left.mp second
      refine pyEq_list_left.mpr
        ⟨zs, rfl, List.forall₂_iff_get.mpr ⟨one.length_eq.trans two.length_eq, ?_⟩⟩
      intro i hx hz
      have hy : i < ys.length := one.length_eq ▸ hx
      exact pyEq_trans_json _ (ys.get ⟨i, hy⟩) _ (items_json hu _ (List.get_mem _ _))
        (items_json hv _ (List.get_mem _ _)) (items_json hw _ (List.get_mem _ _))
        ((List.forall₂_iff_get.mp one).2 i hx hy) ((List.forall₂_iff_get.mp two).2 i hy hz)
  | .dict xs, hu =>
      obtain ⟨ys, rfl⟩ := pyEq_dict_left first
      obtain ⟨zs, rfl⟩ := pyEq_dict_left second
      rw [pyEq_dict_iff hu hw]
      rw [pyEq_dict_iff hu hv] at first
      rw [pyEq_dict_iff hv hw] at second
      intro key
      have one := first key
      have two := second key
      by_cases present : Dict.get xs key = .sentinel
      · rw [present, pyEq_sentinel_left] at one
        rw [one] at two
        rw [present]
        exact two
      · have presentY := present_of_pyEq present one
        exact pyEq_trans_json _ _ _ (isJson_of_slot (IsSlot.get hu key) present)
          (isJson_of_slot (IsSlot.get hv key) presentY)
          (isJson_of_slot (IsSlot.get hw key) (present_of_pyEq presentY two)) one two
termination_by sizeOf u
decreasing_by
  · exact sizeOf_item_lt (List.get_mem _ _)
  · exact sizeOf_get_lt _ _

/-! ## The equivalence on what `get` returns -/

theorem IsSlot.pyEq_refl {v : PyVal} (slot : IsSlot v) : pyEq v v = true := by
  rcases slot with json | rfl
  · exact pyEq_refl_json v json
  · rfl

theorem IsSlot.pyEq_symm {v w : PyVal} (hv : IsSlot v) (hw : IsSlot w)
    (eq : pyEq v w = true) : pyEq w v = true := by
  rcases hv with hv | rfl
  · rcases hw with hw | rfl
    · exact pyEq_symm_json v w hv hw eq
    · rw [pyEq_sentinel_right.mp eq]
      rfl
  · rw [pyEq_sentinel_left.mp eq]
    rfl

theorem IsSlot.pyEq_comm {v w : PyVal} (hv : IsSlot v) (hw : IsSlot w) :
    pyEq v w = pyEq w v := by
  rw [Bool.eq_iff_iff]
  exact ⟨hv.pyEq_symm hw, hw.pyEq_symm hv⟩

theorem IsSlot.pyEq_trans {u v w : PyVal} (hu : IsSlot u) (hv : IsSlot v) (hw : IsSlot w)
    (first : pyEq u v = true) (second : pyEq v w = true) : pyEq u w = true := by
  rcases hu with hu | rfl
  · rcases hv with hv | rfl
    · rcases hw with hw | rfl
      · exact pyEq_trans_json u v w hu hv hw first second
      · rw [pyEq_sentinel_right.mp second] at first
        exact first
    · rw [pyEq_sentinel_left.mp second]
      exact first
  · rw [pyEq_sentinel_left.mp first] at second
    exact second

end PyVal

end YouMi.Python
