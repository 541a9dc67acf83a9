import YouMi.Python.Value
import Mathlib.Data.List.Sort
import Mathlib.Logic.Function.Basic

/-!
# Sessions of a persistence backend

The records of `memory/backends/base.py` and the calls of `PersistenceBackend`.
A message is stored as a `MessageRecord`, which keeps its role, its text and four
further fields; its time stamp is stored and never read, and is left out here.
Times are instants of a clock.
-/

namespace YouMi.Memory

open YouMi.Library YouMi.Python

/-- `bool(value)`. -/
def truthy : PyVal → Bool
  | .null => false
  | .bool value => value
  | .int value => value ≠ 0
  | .float value => value ≠ 0
  | .str value => value ≠ ""
  | .list items => !items.isEmpty
  | .dict entries => !entries.isEmpty
  | .sentinel => true

/-- `value or ""`. -/
def orEmpty (value : PyVal) : PyVal := if truthy value then value else .str ""

theorem orEmpty_str (text : String) : orEmpty (.str text) = .str text := by
  by_cases empty : text = ""
  · subst empty
    rfl
  · exact if_pos (decide_eq_true empty)

structure MessageRecord where
  role : String
  content : String
  rawData : Dict

namespace MessageRecord

/-- The fields of a message kept beside its role and its text. -/
def extraFields : List String := ["tool_calls", "tool_call_id", "name", "function_call"]

/-- The extra fields that a dictionary has. -/
def extras (d : Dict) : Dict := OrderedDict.pick extraFields d

def toOpenaiMessage (record : MessageRecord) : Dict :=
  [("role", .str record.role), ("content", .str record.content)] ++ extras record.rawData

/-- No record where the role or the text is not a string, which the data model refuses. -/
def fromOpenaiMessage (msg : Dict) : Option MessageRecord :=
  match (msg.lookup "role").getD (.str "user"), orEmpty ((msg.lookup "content").getD (.str "")) with
  | .str role, .str content => some ⟨role, content, extras msg⟩
  | _, _ => none

theorem extras_of_fromOpenaiMessage {msg : Dict} {record : MessageRecord}
    (made : fromOpenaiMessage msg = some record) : extras record.rawData = record.rawData := by
  unfold fromOpenaiMessage at made
  split at made
  · cases made
    exact OrderedDict.pick_pick extraFields msg
  · cases made

theorem extras_toOpenaiMessage (record : MessageRecord) :
    extras record.toOpenaiMessage = extras record.rawData := by
  unfold extras
  rw [← OrderedDict.pick_pick extraFields record.rawData]
  refine OrderedDict.pick_congr fun field member => ?_
  have role : (field == "role") = false := by
    refine beq_false_of_ne fun same => ?_
    subst same
    exact absurd member (by decide)
  have content : (field == "content") = false := by
    refine beq_false_of_ne fun same => ?_
    subst same
    exact absurd member (by decide)
  change ([("role", _), ("content", _)] ++ extras record.rawData).lookup field = _
  rw [List.cons_append, List.cons_append, List.nil_append, List.lookup_cons, role,
    List.lookup_cons, content]
  rfl

/-- A message that has been normalised once is normalised to itself. -/
theorem fromOpenaiMessage_toOpenaiMessage {msg : Dict} {record : MessageRecord}
    (made : fromOpenaiMessage msg = some record) :
    fromOpenaiMessage record.toOpenaiMessage = some record := by
  have kept := (extras_toOpenaiMessage record).trans (extras_of_fromOpenaiMessage made)
  obtain ⟨role, content, rawData⟩ := record
  unfold fromOpenaiMessage
  rw [kept]
  change (match PyVal.str role, orEmpty (PyVal.str content) with
    | PyVal.str role, PyVal.str content => some (MessageRecord.mk role content rawData)
    | _, _ => none) = _
  rw [orEmpty_str]

end MessageRecord

/-- `SessionRecord`; a row of the `sessions` table has the same fields. -/
structure SessionRecord where
  sessionId : String
  agentId : String
  tenant : String := "default"
  createdAt : Nat
  updatedAt : Nat
  metadata : Dict := []

/-- A call of a backend. -/
inductive Operation where
  | saveSession (sessionId agentId : String) (messages : List Dict) (metadata : Option Dict)
      (tenant : String)
  | loadMessages (sessionId : String)
  | listSessions (agentId : String) (tenant : Option String)
  | deleteSession (sessionId : String)
  | getLatestSession (agentId : String) (tenant : Option String)

/-- What a call returns; `raised` is an exception. -/
inductive Answer where
  | done
  | raised
  | messages (messages : List Dict)
  | sessions (records : List SessionRecord)
  | latest (record : Option SessionRecord)

/--
What one call finds outside the backend: the clock, the text `str` gives for an
object, the order in which the directory lists its entries and the order in which
the database returns rows sorted by their time.
-/
structure World where
  now : Nat
  objectText : String
  iterdir : List String → List String
  iterdir_perm : ∀ names, (iterdir names).Perm names
  orderBy : List SessionRecord → List SessionRecord
  orderBy_perm : ∀ rows, (orderBy rows).Perm rows
  orderBy_sorted : ∀ rows,
    (orderBy rows).Pairwise fun first second => second.updatedAt ≤ first.updatedAt

/-- `record.tenant` passes the filter, if there is one. -/
def SessionRecord.ofTenant (record : SessionRecord) : Option String → Bool
  | none => true
  | some tenant => record.tenant == tenant

end YouMi.Memory

/-!
## The map behind a persistence backend

What a backend is for is a map from session ids to sessions.  A save gives a new
session its agent, its tenant and its time of creation, and every save replaces its
metadata and its messages.  The map allows a call one answer, up to the order of
sessions that were saved at the same time.
-/

namespace YouMi.Memory

open YouMi.Library YouMi.Python

/-- A session of the map. -/
structure Session where
  agentId : String
  tenant : String
  createdAt : Nat
  updatedAt : Nat
  metadata : Dict
  messages : List MessageRecord

namespace Session

def record (sessionId : String) (session : Session) : SessionRecord where
  sessionId := sessionId
  agentId := session.agentId
  tenant := session.tenant
  createdAt := session.createdAt
  updatedAt := session.updatedAt
  metadata := session.metadata

/-- The session after a save at a time. -/
def saved (now : Nat) (agentId : String) (records : List MessageRecord) (metadata : Dict)
    (tenant : String) : Option Session → Session
  | some old => { old with updatedAt := now, metadata := metadata, messages := records }
  | none => ⟨agentId, tenant, now, now, metadata, records⟩

end Session

abbrev SessionMap := String → Option Session

namespace SessionMap

def next (now : Nat) (map : SessionMap) : Operation → SessionMap
  | .saveSession sessionId agentId messages metadata tenant =>
      match messages.mapM MessageRecord.fromOpenaiMessage with
      | none => map
      | some records =>
          Function.update map sessionId
            (some (.saved now agentId records (metadata.getD []) tenant (map sessionId)))
  | .deleteSession sessionId => Function.update map sessionId none
  | _ => map

/-- The record of a session of an agent that passes the tenant filter. -/
def Matches (map : SessionMap) (agentId : String) (tenant : Option String)
    (record : SessionRecord) : Prop :=
  ∃ session, map record.sessionId = some session ∧ record = session.record record.sessionId ∧
    session.agentId = agentId ∧ record.ofTenant tenant = true

/-- The list has the record of each session that matches, once. -/
structure Lists (map : SessionMap) (agentId : String) (tenant : Option String)
    (records : List SessionRecord) : Prop where
  distinct : (records.map SessionRecord.sessionId).Nodup
  mem_iff : ∀ record, record ∈ records ↔ map.Matches agentId tenant record

/-- The latest come first. -/
def Sorted (records : List SessionRecord) : Prop :=
  records.Pairwise fun first second => second.updatedAt ≤ first.updatedAt

/-- The answers that the map allows. -/
def Allows (map : SessionMap) : Operation → Answer → Prop
  | .saveSession _ _ messages _ _, answer =>
      answer = if (messages.mapM MessageRecord.fromOpenaiMessage).isSome then .done else .raised
  | .loadMessages sessionId, answer =>
      answer = .messages ((((map sessionId).map Session.messages).getD []).map
        MessageRecord.toOpenaiMessage)
  | .listSessions agentId tenant, answer =>
      ∃ records, answer = .sessions records ∧ map.Lists agentId tenant records ∧ Sorted records
  | .deleteSession _, answer => answer = .done
  | .getLatestSession agentId tenant, answer =>
      ∃ records, answer = .latest records.head? ∧ map.Lists agentId tenant records ∧
        Sorted records

end SessionMap

/-- The answers are the same up to the order of sessions with the same time. -/
def Answer.Agree : Answer → Answer → Prop
  | .sessions first, .sessions second =>
      first.Perm second ∧
        first.map SessionRecord.updatedAt = second.map SessionRecord.updatedAt
  | .latest first, .latest second =>
      first.map SessionRecord.updatedAt = second.map SessionRecord.updatedAt
  | first, second => first = second

namespace SessionMap

variable {map : SessionMap} {agentId : String} {tenant : Option String}
  {first second : List SessionRecord}

theorem Lists.nodup (lists : map.Lists agentId tenant first) : first.Nodup :=
  List.Nodup.of_map _ lists.distinct

theorem Lists.perm (lists : map.Lists agentId tenant first) (perm : second.Perm first) :
    map.Lists agentId tenant second where
  distinct := (perm.map _).nodup_iff.mpr lists.distinct
  mem_iff := fun record => perm.mem_iff.trans (lists.mem_iff record)

theorem Lists.perm_of_lists (one : map.Lists agentId tenant first)
    (other : map.Lists agentId tenant second) : first.Perm second :=
  (List.perm_ext_iff_of_nodup one.nodup other.nodup).mpr fun record =>
    (one.mem_iff record).trans (other.mem_iff record).symm

/-- Two sorted lists of the same sessions have the same times in the same places. -/
theorem Lists.times_eq (one : map.Lists agentId tenant first)
    (other : map.Lists agentId tenant second) (sorted : Sorted first) (sorted' : Sorted second) :
    first.map SessionRecord.updatedAt = second.map SessionRecord.updatedAt := by
  refine @List.Perm.eq_of_pairwise _ (fun a b => b ≤ a) _ _ ?_ ?_ ?_
    ((one.perm_of_lists other).map _)
  · intro a b _ _ ge le
    exact Nat.le_antisymm le ge
  · exact List.pairwise_map.mpr sorted
  · exact List.pairwise_map.mpr sorted'

theorem sorted_insertionSort (records : List SessionRecord) :
    Sorted (records.insertionSort fun first second => second.updatedAt ≤ first.updatedAt) := by
  have : Std.Total fun first second : SessionRecord => second.updatedAt ≤ first.updatedAt :=
    ⟨fun first second => Nat.le_total second.updatedAt first.updatedAt⟩
  have : IsTrans SessionRecord fun first second => second.updatedAt ≤ first.updatedAt :=
    ⟨fun _ _ _ ge ge' => Nat.le_trans ge' ge⟩
  exact List.pairwise_insertionSort _ _

/-- Answers that the map allows agree. -/
theorem Allows.agree {operation : Operation} {one other : Answer}
    (allowed : map.Allows operation one) (allowed' : map.Allows operation other) :
    one.Agree other := by
  cases operation with
  | saveSession sessionId agentId messages metadata tenant =>
      unfold Allows at allowed allowed'
      rw [allowed, allowed']
      split
      · rfl
      · rfl
  | loadMessages sessionId =>
      unfold Allows at allowed allowed'
      rw [allowed, allowed']
      rfl
  | listSessions agentId tenant =>
      obtain ⟨first, rfl, lists, sorted⟩ := allowed
      obtain ⟨second, rfl, lists', sorted'⟩ := allowed'
      exact ⟨lists.perm_of_lists lists', lists.times_eq lists' sorted sorted'⟩
  | deleteSession sessionId =>
      unfold Allows at allowed allowed'
      rw [allowed, allowed']
      rfl
  | getLatestSession agentId tenant =>
      obtain ⟨first, rfl, lists, sorted⟩ := allowed
      obtain ⟨second, rfl, lists', sorted'⟩ := allowed'
      change first.head?.map _ = second.head?.map _
      rw [← List.head?_map, ← List.head?_map, lists.times_eq lists' sorted sorted']

end SessionMap

/-- A world at a time, whose directory and database keep the order of their entries. -/
def plainWorld (now : Nat) : World where
  now := now
  objectText := "<object object>"
  iterdir := id
  iterdir_perm := fun _ => .refl _
  orderBy := List.insertionSort fun first second => second.updatedAt ≤ first.updatedAt
  orderBy_perm := fun rows => List.perm_insertionSort _ rows
  orderBy_sorted := SessionMap.sorted_insertionSort

end YouMi.Memory
