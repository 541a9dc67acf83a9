import YouMi.Library.Best
import YouMi.Python.Json
import YouMi.Core.ToolExecutor
import YouMi.Coordinator.ToolApproval
import YouMi.Mcp.Cone

/-!
# The global memory

`GlobalMemory` of `knowledge/global_memory.py`: a table of knowledge entries with the
vectors that belong to them, and instances that read and write it for one tenant each.
An instance has a connection to the database, its own or one that it shares; an update
that changes no row leaves the connection's write transaction open.
-/

namespace YouMi.Knowledge

open YouMi.Core YouMi.Library YouMi.Python YouMi.Coordinator

/-! ## Entries -/

inductive KnowledgeCategory where
  | toolExperience
  | taskPattern
  | bugFix
  | humanFeedback
  deriving DecidableEq

/-- An entry; `V` is the type of the vectors. -/
structure KnowledgeEntry (V : Type) where
  entryId : String
  category : KnowledgeCategory := .toolExperience
  toolName : String := ""
  content : String := ""
  embedding : Option V := none
  sourceTaskId : String := ""
  sourceAgentId : String := ""
  tenant : String := "default"
  successRate : Rat := 0
  resolved : Bool := false
  resolution : String := ""
  metadata : Dict := []
  createdAt : Nat
  updatedAt : Nat

/-- A row of `knowledge_entries` with its vectors in `vec_knowledge_idx` and in
`knowledge_vectors`; the entry itself has none. -/
structure KnowledgeRow (V : Type) where
  entry : KnowledgeEntry V
  indexed : Option V := none
  vector : Option V := none

/-- What is used of the vector index, of floating point numbers and of the database: exact
distances and similarities, the rows of a query in the order of `ORDER BY updated_at DESC`. -/
structure Retrieval (V κ : Type) where
  lower : String → String
  orderBy : List (KnowledgeRow V) → List (KnowledgeRow V)
  /-- The vector has the dimension of the index. -/
  fits : V → Bool
  /-- The largest `k` of a query for the nearest neighbours. -/
  maxNeighbours : Nat
  normalize : V → V
  distance : V → V → κ
  /-- `l2_to_cosine(distance) > 0.1`. -/
  near : κ → Bool
  /-- `cosine_similarity_python`, where a missing vector is empty. -/
  similarity : V → Option V → κ
  /-- `score > 0.1`. -/
  similar : κ → Bool

/-- The tables, and the connection that has a write transaction open. -/
structure KnowledgeBase (V : Type) where
  entries : OrderedDict String (KnowledgeRow V) := []
  openWriter : Option Nat := none

/-- What an instance is: its tenant, whether it has an embedding client and whether its
connection has the vector index. -/
structure GlobalMemory where
  tenant : String
  embeds : Bool
  vecAvailable : Bool
  connection : Nat

def GlobalMemory.create (tenant : String) (embeds vecAvailable : Bool) (connection : Nat) :
    GlobalMemory where
  tenant := if tenant = "" then "default" else tenant
  embeds := embeds
  vecAvailable := vecAvailable
  connection := connection

/-- `clone_for_tenant`: the same connection for another tenant. -/
def GlobalMemory.cloneForTenant (s : GlobalMemory) (tenant : String) : GlobalMemory :=
  .create tenant s.embeds s.vecAvailable s.connection

/-- An operation, with what the embedding client answers and the time it finds. -/
inductive KnowledgeOperation (V : Type) where
  | batchAdd (entries : List (KnowledgeEntry V)) (vectors : Except Fault (List V))
  | markResolved (entryId fixDescription : String) (now : Nat)
  | getEntry (entryId : String)
  | listEntries (toolName : Option String) (category : Option KnowledgeCategory)
      (unresolvedOnly : Bool) (limit : Int)
  | search (query : String) (toolName : Option String) (topK : Int) (queryVec : Except Fault V)

inductive KnowledgeAnswer (V : Type) where
  | added (entryIds : List String)
  | entry (found : Option (KnowledgeEntry V))
  | entries (found : List (KnowledgeEntry V))
  | raised

variable {V κ : Type}

/-- The entry that a call returns; `none` where it raises. -/
def KnowledgeAnswer.entry? : KnowledgeAnswer V → Option (Option (KnowledgeEntry V))
  | .entry found => some found
  | _ => none

/-- `_row_to_entry`. -/
def KnowledgeRow.toEntry (row : KnowledgeRow V) : KnowledgeEntry V :=
  { row.entry with tenant := if row.entry.tenant = "" then "default" else row.entry.tenant }

namespace GlobalMemory

/-! ## Writing -/

/-- A write waits for the transaction of another connection until it times out. -/
def LockedOut (s : GlobalMemory) (base : KnowledgeBase V) : Prop :=
  ∃ writer, base.openWriter = some writer ∧ writer ≠ s.connection

instance (s : GlobalMemory) (base : KnowledgeBase V) : Decidable (s.LockedOut base) :=
  match writing : base.openWriter with
  | none => .isFalse fun ⟨_, other, _⟩ => by simp [writing] at other
  | some writer =>
      if same : writer = s.connection then
        .isFalse fun ⟨_, other, ne⟩ => ne (by simp_all)
      else .isTrue ⟨writer, writing, same⟩

/-- `conn.rollback()`. -/
def rollback (s : GlobalMemory) (base : KnowledgeBase V) : KnowledgeBase V :=
  if base.openWriter = some s.connection then { base with openWriter := none } else base

/-- The row that `INSERT … ON CONFLICT(entry_id) DO UPDATE` leaves; `entry` has the metadata
that are read again. -/
def upserted (entry : KnowledgeEntry V) : Option (KnowledgeRow V) → KnowledgeRow V
  | none => { entry := { entry with embedding := none } }
  | some old =>
      { old with entry := { old.entry with
          content := entry.content
          resolved := entry.resolved
          resolution := entry.resolution
          successRate := entry.successRate
          metadata := entry.metadata
          updatedAt := entry.updatedAt } }

/-- The row with the vector of the entry; `none` where the index refuses it. -/
def writeVec (r : Retrieval V κ) (s : GlobalMemory) (embedding : Option V)
    (row : KnowledgeRow V) : Option (KnowledgeRow V) :=
  match embedding with
  | none => some row
  | some vec =>
      if s.vecAvailable then
        if r.fits vec then some { row with indexed := some (r.normalize vec) } else none
      else some { row with vector := some vec }

theorem entry_of_writeVec {r : Retrieval V κ} {s : GlobalMemory} {embedding : Option V}
    {row after : KnowledgeRow V} (done : s.writeVec r embedding row = some after) :
    after.entry = row.entry := by
  unfold writeVec at done
  split at done
  · rw [Option.some.inj done]
  · split at done
    · split at done
      · rw [← Option.some.inj done]
      · cases done
    · rw [← Option.some.inj done]

/-- The base after `_insert_entry`; `none` where it raises. -/
def inserted? (r : Retrieval V κ) (s : GlobalMemory) (base : KnowledgeBase V)
    (entry : KnowledgeEntry V) : Option (KnowledgeBase V) :=
  match entry.metadata.dumps? with
  | none => none
  | some metadata =>
      if s.LockedOut base then none
      else
        let row := upserted { entry with metadata := metadata } (base.entries.lookup entry.entryId)
        (s.writeVec r entry.embedding row).map fun row =>
          { entries := base.entries.assign entry.entryId row, openWriter := none }

/-- The entries are inserted until one raises; whether none did. -/
def insertEntries (r : Retrieval V κ) (s : GlobalMemory) :
    KnowledgeBase V → List (KnowledgeEntry V) → KnowledgeBase V × Bool
  | base, [] => (base, true)
  | base, entry :: rest =>
      match s.inserted? r base entry with
      | none => (s.rollback base, false)
      | some after => s.insertEntries r after rest

/-- An entry of the tenant `default` becomes the instance's. -/
def claimed (s : GlobalMemory) (entry : KnowledgeEntry V) : KnowledgeEntry V :=
  if entry.tenant = "default" then { entry with tenant := s.tenant } else entry

/-- `zip(pending, vectors)`, where `pending` are the entries without a vector. -/
def embedded : List (KnowledgeEntry V) → List V → List (KnowledgeEntry V)
  | [], _ => []
  | entry :: rest, vectors =>
      match entry.embedding, vectors with
      | none, vec :: vectors => { entry with embedding := some vec } :: embedded rest vectors
      | none, [] => entry :: rest
      | some _, vectors => entry :: embedded rest vectors

/-- The entries that `batch_add` inserts; `none` where the client raises what it does not catch. -/
def prepared (s : GlobalMemory) (entries : List (KnowledgeEntry V))
    (vectors : Except Fault (List V)) : Option (List (KnowledgeEntry V)) :=
  let entries := entries.map s.claimed
  if s.embeds ∧ entries.any fun entry => entry.embedding.isNone then
    match vectors with
    | .ok vectors => some (embedded entries vectors)
    | .error fault => if fault.isException then some entries else none
  else some entries

theorem mem_embedded {entries : List (KnowledgeEntry V)} {vectors : List V}
    {entry : KnowledgeEntry V} (member : entry ∈ embedded entries vectors) :
    ∃ given ∈ entries, entry = { given with embedding := entry.embedding } := by
  induction entries generalizing vectors with
  | nil => cases member
  | cons first rest ih =>
      unfold embedded at member
      split at member
      · rename_i vec vectors _
        rcases List.mem_cons.mp member with rfl | later
        · exact ⟨first, List.mem_cons_self, rfl⟩
        · obtain ⟨given, isGiven, same⟩ := ih later
          exact ⟨given, List.mem_cons_of_mem _ isGiven, same⟩
      · exact ⟨entry, member, rfl⟩
      · rcases List.mem_cons.mp member with rfl | later
        · exact ⟨entry, List.mem_cons_self, rfl⟩
        · obtain ⟨given, isGiven, same⟩ := ih later
          exact ⟨given, List.mem_cons_of_mem _ isGiven, same⟩

/-- An entry that is inserted has the id and the claimed tenant of one that is given. -/
theorem mem_prepared {s : GlobalMemory} {entries prepared : List (KnowledgeEntry V)}
    {vectors : Except Fault (List V)} (ready : s.prepared entries vectors = some prepared)
    {entry : KnowledgeEntry V} (member : entry ∈ prepared) :
    ∃ given ∈ entries, entry.entryId = given.entryId ∧ entry.tenant = (s.claimed given).tenant := by
  have id_claimed (given : KnowledgeEntry V) : (s.claimed given).entryId = given.entryId := by
    unfold claimed
    split <;> rfl
  have ofClaimed {other : KnowledgeEntry V} (member : other ∈ entries.map s.claimed) :
      ∃ given ∈ entries, other.entryId = given.entryId ∧
        other.tenant = (s.claimed given).tenant := by
    obtain ⟨given, isGiven, rfl⟩ := List.mem_map.mp member
    exact ⟨given, isGiven, id_claimed given, rfl⟩
  unfold GlobalMemory.prepared at ready
  dsimp only at ready
  split at ready
  · split at ready
    · obtain rfl := Option.some.inj ready
      obtain ⟨other, isOther, same⟩ := mem_embedded member
      obtain ⟨given, isGiven, ids, tenants⟩ := ofClaimed isOther
      rw [same]
      exact ⟨given, isGiven, ids, tenants⟩
    · split at ready
      · obtain rfl := Option.some.inj ready
        exact ofClaimed member
      · cases ready
  · obtain rfl := Option.some.inj ready
    exact ofClaimed member

def batchAdd (r : Retrieval V κ) (s : GlobalMemory) (base : KnowledgeBase V)
    (entries : List (KnowledgeEntry V)) (vectors : Except Fault (List V)) :
    KnowledgeBase V × KnowledgeAnswer V :=
  match s.prepared entries vectors with
  | none => (base, .raised)
  | some prepared =>
      let (after, done) := s.insertEntries r base prepared
      (after, if done then .added (prepared.map KnowledgeEntry.entryId) else .raised)

/-- `WHERE entry_id = ? AND tenant = ?`. -/
def rowOf (s : GlobalMemory) (base : KnowledgeBase V) (entryId : String) :
    Option (KnowledgeRow V) :=
  (base.entries.lookup entryId).filter fun row => row.entry.tenant = s.tenant

/-- The row with the columns that `mark_resolved` sets. -/
def marked (fixDescription : String) (now : Nat) (row : KnowledgeRow V) : KnowledgeRow V :=
  { row with entry := { row.entry with
      resolved := true, resolution := fixDescription, updatedAt := now } }

def getEntry (s : GlobalMemory) (base : KnowledgeBase V) (entryId : String) :
    Option (KnowledgeEntry V) := (s.rowOf base entryId).map KnowledgeRow.toEntry

def markResolved (s : GlobalMemory) (base : KnowledgeBase V) (entryId fixDescription : String)
    (now : Nat) : KnowledgeBase V × KnowledgeAnswer V :=
  if s.LockedOut base then (base, .raised)
  else
    match s.rowOf base entryId with
    -- The update has opened a transaction; without a changed row nothing ends it.
    | none => ({ base with openWriter := some s.connection }, .entry none)
    | some row =>
        let after : KnowledgeBase V :=
          { entries := base.entries.assign entryId (marked fixDescription now row)
            openWriter := none }
        (after, .entry (s.getEntry after entryId))

/-! ## Reading -/

/-- `LIMIT ?`: no limit where it is negative. -/
def limitedTo {α : Type} (limit : Int) (rows : List α) : List α :=
  if limit < 0 then rows else rows.take limit.toNat

/-- The row passes the filter for a tool, if there is one. -/
def ofTool (toolName : Option String) (row : KnowledgeRow V) : Bool :=
  toolName.all fun name => row.entry.toolName = name

/-- The rows of the tenant. -/
def rows (s : GlobalMemory) (base : KnowledgeBase V) : List (KnowledgeRow V) :=
  (base.entries.map Prod.snd).filter fun row => row.entry.tenant = s.tenant

/-- The rows of the query in `list_entries`. -/
def selected (r : Retrieval V κ) (s : GlobalMemory) (base : KnowledgeBase V)
    (toolName : Option String) (category : Option KnowledgeCategory) (unresolvedOnly : Bool)
    (limit : Int) : List (KnowledgeRow V) :=
  limitedTo limit (r.orderBy ((s.rows base).filter fun row =>
    ofTool toolName row && (category.all fun kind => row.entry.category = kind) &&
      !(unresolvedOnly && row.entry.resolved)))

/-- The database takes integers of 64 bits. -/
def isSqlInteger (n : Int) : Bool := -2 ^ 63 ≤ n && n < 2 ^ 63

def listEntries (r : Retrieval V κ) (s : GlobalMemory) (base : KnowledgeBase V)
    (toolName : Option String) (category : Option KnowledgeCategory) (unresolvedOnly : Bool)
    (limit : Int) : KnowledgeAnswer V :=
  if isSqlInteger limit then
    .entries ((s.selected r base toolName category unresolvedOnly limit).map KnowledgeRow.toEntry)
  else .raised

/-- How many words of the query stand in the content. -/
def wordsFound (r : Retrieval V κ) (query : String) (row : KnowledgeRow V) : Nat :=
  (words (r.lower query)).countP fun word => contains (r.lower row.entry.content).toList word

def keywordSearch (r : Retrieval V κ) (rows : List (KnowledgeRow V)) (query : String)
    (topK : Int) : List (KnowledgeRow V) :=
  (Mcp.sliceTo topK (byScore (wordsFound r query) rows)).filter fun row =>
    0 < wordsFound r query row

variable [LinearOrder κ]

/-- The rows with a vector in the index, each with the distance of that from the query. -/
def distances (r : Retrieval V κ) (base : KnowledgeBase V) (queryVec : V) :
    List ((String × KnowledgeRow V) × κ) :=
  base.entries.filterMap fun entry => entry.2.indexed.map fun vec =>
    (entry, r.distance (r.normalize queryVec) vec)

/-- The index in the order of the distances; the older of two rows at one distance first. -/
def nearest (found : List ((String × KnowledgeRow V) × κ)) :
    List ((String × KnowledgeRow V) × κ) := byScore (fun item => OrderDual.toDual item.2) found

/-- A neighbour that the query joins and that is near enough. -/
def accepts (r : Retrieval V κ) (s : GlobalMemory) (toolName : Option String)
    (item : (String × KnowledgeRow V) × κ) : Bool :=
  ofTool toolName item.1.2 && decide (item.1.2.entry.tenant = s.tenant) && r.near item.2

/-- The accepted ones among the nearest neighbours. -/
def neighbours (r : Retrieval V κ) (s : GlobalMemory) (toolName : Option String) (fetchK : Nat)
    (found : List ((String × KnowledgeRow V) × κ)) : List ((String × KnowledgeRow V) × κ) :=
  ((nearest found).take fetchK).filter (s.accepts r toolName)

/-- `none` where the query raises. -/
def vec0Search (r : Retrieval V κ) (s : GlobalMemory) (base : KnowledgeBase V) (queryVec : V)
    (toolName : Option String) (topK : Int) : Option (List (KnowledgeRow V)) :=
  let fetchK := topK * 3
  if r.fits queryVec ∧ 0 ≤ fetchK ∧ fetchK ≤ r.maxNeighbours then
    some ((Mcp.sliceTo topK
      (s.neighbours r toolName fetchK.toNat (distances r base queryVec))).map fun item => item.1.2)
  else none

def jsonSearch (r : Retrieval V κ) (s : GlobalMemory) (base : KnowledgeBase V) (queryVec : V)
    (toolName : Option String) (topK : Int) : List (KnowledgeRow V) :=
  let score := fun row : KnowledgeRow V => r.similarity queryVec row.vector
  (Mcp.sliceTo topK (byScore score (s.selected r base toolName none false 1000))).filter
    fun row => r.similar (score row)

/-- What the search by vectors finds; nothing where it raises. -/
def vectorSearch (r : Retrieval V κ) (s : GlobalMemory) (base : KnowledgeBase V) (queryVec : V)
    (toolName : Option String) (topK : Int) : List (KnowledgeRow V) :=
  if s.vecAvailable then (s.vec0Search r base queryVec toolName topK).getD []
  else s.jsonSearch r base queryVec toolName topK

/-- The rows that a search returns; `none` where the client raises what is not caught. -/
def found? (r : Retrieval V κ) (s : GlobalMemory) (base : KnowledgeBase V) (query : String)
    (toolName : Option String) (topK : Int) (queryVec : Except Fault V) :
    Option (List (KnowledgeRow V)) :=
  let byWords := keywordSearch r (s.selected r base toolName none false 1000) query topK
  if trim isSpace query.toList = [] then some []
  else if s.embeds then
    match queryVec with
    | .error fault => if fault.isException then some byWords else none
    | .ok queryVec =>
        match s.vectorSearch r base queryVec toolName topK with
        | [] => some byWords
        | found => some found
  else some byWords

def search (r : Retrieval V κ) (s : GlobalMemory) (base : KnowledgeBase V) (query : String)
    (toolName : Option String) (topK : Int) (queryVec : Except Fault V) : KnowledgeAnswer V :=
  match s.found? r base query toolName topK queryVec with
  | none => .raised
  | some rows => .entries (rows.map KnowledgeRow.toEntry)

/-- One operation. -/
def call (r : Retrieval V κ) (s : GlobalMemory) (base : KnowledgeBase V) :
    KnowledgeOperation V → KnowledgeBase V × KnowledgeAnswer V
  | .batchAdd entries vectors => s.batchAdd r base entries vectors
  | .markResolved entryId fixDescription now => s.markResolved base entryId fixDescription now
  | .getEntry entryId => (base, .entry (s.getEntry base entryId))
  | .listEntries toolName category unresolvedOnly limit =>
      (base, s.listEntries r base toolName category unresolvedOnly limit)
  | .search query toolName topK queryVec =>
      (base, s.search r base query toolName topK queryVec)

end GlobalMemory

end YouMi.Knowledge
