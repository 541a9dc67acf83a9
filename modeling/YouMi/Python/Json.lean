import YouMi.Python.Value

/-!
# Values written as JSON and read again

`json.loads(json.dumps(value))` on the values of `Python/Value`.  The one value
that JSON has no form for is the marker object: `json.dumps` raises on it, and with
`default=str` writes its text.
-/

namespace YouMi.Python

namespace PyVal

mutual

/-- What is read again of a value that `json.dump(…, default=str)` has written. -/
def dumped (text : String) : PyVal → PyVal
  | .list items => .list (dumpedItems text items)
  | .dict entries => .dict (dumpedEntries text entries)
  | .sentinel => .str text
  | .null => .null
  | .bool value => .bool value
  | .int value => .int value
  | .float value => .float value
  | .str value => .str value

def dumpedItems (text : String) : List PyVal → List PyVal
  | [] => []
  | v :: rest => dumped text v :: dumpedItems text rest

def dumpedEntries (text : String) : Dict → Dict
  | [] => []
  | (key, v) :: rest => (key, dumped text v) :: dumpedEntries text rest

end

mutual

theorem dumped_of_isJson (text : String) (v : PyVal) (json : v.isJson = true) :
    v.dumped text = v := by
  cases v with
  | list items => rw [dumped, dumpedItems_of_isJson text items (by simpa [isJson] using json)]
  | dict entries =>
      rw [isJson, Bool.and_eq_true] at json
      rw [dumped, dumpedEntries_of_isJson text entries json.2]
  | sentinel => cases json
  | null => rfl
  | bool value => rfl
  | int value => rfl
  | float value => rfl
  | str value => rfl

theorem dumpedItems_of_isJson (text : String) (items : List PyVal)
    (json : listIsJson items = true) : dumpedItems text items = items := by
  cases items with
  | nil => rfl
  | cons v rest =>
      rw [listIsJson, Bool.and_eq_true] at json
      rw [dumpedItems, dumped_of_isJson text v json.1, dumpedItems_of_isJson text rest json.2]

theorem dumpedEntries_of_isJson (text : String) (entries : Dict)
    (json : entriesAreJson entries = true) : dumpedEntries text entries = entries := by
  cases entries with
  | nil => rfl
  | cons entry rest =>
      obtain ⟨key, v⟩ := entry
      rw [entriesAreJson, Bool.and_eq_true] at json
      rw [dumpedEntries, dumped_of_isJson text v json.1,
        dumpedEntries_of_isJson text rest json.2]

end

end PyVal

namespace Dict

def isJson (d : Dict) : Bool := (PyVal.dict d).isJson

/-- `json.dumps(d)`, read again; `none` where it raises. -/
def dumps? (d : Dict) : Option Dict := if d.isJson then some d else none

theorem dumps?_of_isJson {d : Dict} (json : d.isJson = true) : d.dumps? = some d :=
  if_pos json

/-- What `default=str` leaves of a dictionary that is JSON is the dictionary. -/
theorem dumpedEntries_eq_self (text : String) {d : Dict} (json : d.isJson = true) :
    PyVal.dumpedEntries text d = d :=
  PyVal.dict.inj (PyVal.dumped_of_isJson text (.dict d) json)

end Dict

end YouMi.Python
