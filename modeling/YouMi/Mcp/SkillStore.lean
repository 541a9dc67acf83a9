import YouMi.Library.Like
import YouMi.Library.Newest
import YouMi.Mcp.ToolStore.SearchPaths
import YouMi.Python.JsonText

/-!
# The store of skills

`mcp/skill_store.py` keeps every version of a skill in one table.  A search takes the rows whose
tags, as JSON text, are `LIKE` one of the tags of the query, and all versions of a skill take
part.
-/

namespace YouMi.Mcp.SkillStore

open YouMi.Core YouMi.Library YouMi.Mcp.ToolStore YouMi.Python

variable {V : Type}

/-! ## Rows -/

/-- A skill; the texts of its times order as the times do. -/
structure SkillEntry where
  skillName : String
  version : String := "1.0.0"
  parentVersionId : Option String := none
  boundToolName : String := ""
  describe : String := ""
  summary : String := ""
  summaryL2 : String := ""
  contentJson : String := ""
  tags : List String := []
  riskLevel : String := "low"
  createdAt : Nat := 0
  updatedAt : Nat := 0

structure SkillRow where
  id : Nat
  skillId : String
  skillName : String
  version : String
  parentVersionId : Option String
  boundToolName : String
  describe : String
  summary : String
  summaryL2 : String
  contentJson : String
  /-- A JSON array. -/
  tags : String
  riskLevel : String
  createdAt : Nat
  updatedAt : Nat
  deriving DecidableEq

instance : Keyed SkillRow String where
  rowid := SkillRow.id
  uniqueKey := SkillRow.skillId
  assign id row := { row with id := id }
  rowid_assign _ _ := rfl
  uniqueKey_assign _ _ := rfl

/-- `json.dumps(tags, ensure_ascii=False)`. -/
def dumpsTags (tags : List String) : String :=
  String.ofList (Json.dumps false id (.list (tags.map fun tag => .str tag.toList)))

/-- `json.loads` of the tags; what is no list counts as an empty one. -/
def loadsTags (text : String) : List String :=
  match Json.loads (orElse text "[]").toList with
  | some (.list items) => items.filterMap fun
      | .str tag => some (String.ofList tag)
      | _ => none
  | _ => []

/-- `_row_to_entry`. -/
def SkillRow.toEntry (row : SkillRow) : SkillEntry where
  skillName := row.skillName
  version := row.version
  parentVersionId := row.parentVersionId
  boundToolName := row.boundToolName
  describe := row.describe
  summary := row.summary
  summaryL2 := row.summaryL2
  contentJson := row.contentJson
  tags := loadsTags row.tags
  riskLevel := orElse row.riskLevel "low"
  createdAt := row.createdAt
  updatedAt := row.updatedAt

/-- The tables; the two `vec0` tables are used if the extension is there. -/
structure SkillState (V : Type) where
  skills : RowTable SkillRow
  vecSkills : OrderedDict (String × VecLevel) V
  index : VecLevel → List (Nat × V)
  vecExtension : Option (VecExtension V)
  vec_keyed : vecSkills.keys.Nodup
  index_keyed : ∀ level, ((index level).map Prod.fst).Nodup

def SkillState.empty (vecExtension : Option (VecExtension V)) : SkillState V :=
  ⟨.empty, [], fun _ => [], vecExtension, List.nodup_nil, fun _ => List.nodup_nil⟩

/-- What a call meets outside of the store. -/
structure SkillEnv (V : Type) where
  now : Nat
  /-- The embedding client, if there is one; nothing for a text whose embedding raises. -/
  embedOne : Option (String → Option V)

/-! ## Writing -/

/-- The row of the skill takes the values of the entry; its name, its version and the time of its
creation stay. -/
def overwrite (row old : SkillRow) : SkillRow :=
  if old.skillId = row.skillId then
    { row with
      id := old.id
      skillId := old.skillId
      skillName := old.skillName
      version := old.version
      createdAt := old.createdAt }
  else old

def newRow (now : Nat) (entry : SkillEntry) : SkillRow :=
  let summary := orElse entry.summary (slice entry.describe 80)
  { id := 0
    skillId := entry.skillName ++ "@" ++ entry.version
    skillName := entry.skillName
    version := entry.version
    parentVersionId := entry.parentVersionId
    boundToolName := entry.boundToolName
    describe := entry.describe
    summary := summary
    summaryL2 := orElse entry.summaryL2 (slice summary 30)
    contentJson := entry.contentJson
    tags := dumpsTags entry.tags
    riskLevel := orElse entry.riskLevel "low"
    createdAt := now
    updatedAt := now }

/-- `INSERT … ON CONFLICT(skill_id) DO UPDATE`. -/
def upsertRow (row : SkillRow) (skills : RowTable SkillRow) : RowTable SkillRow :=
  match skills.insert? row with
  | some inserted => inserted
  | none =>
      skills.update (overwrite row)
        (fun old => by
          unfold overwrite
          split <;> rfl)
        fun old => by
          unfold overwrite
          split <;> rfl

def SkillState.setIndex (s : SkillState V) (level : VecLevel) (entries : List (Nat × V))
    (keyed : (entries.map Prod.fst).Nodup) : SkillState V :=
  { s with
    index := fun other => if other = level then entries else s.index other
    index_keyed := by
      intro other
      split
      · exact keyed
      · exact s.index_keyed other }

/-- `_write_vec_async`, and whether it succeeds: the index refuses a vector only after the one
before it has been deleted. -/
def writeVec (level : VecLevel) (rowId : Nat) (skillId : String) (embedding : V)
    (s : SkillState V) : SkillState V × Bool :=
  match s.vecExtension with
  | some vec =>
      if vec.accepts embedding then
        (s.setIndex level ((s.index level).filter (fun entry => entry.1 ≠ rowId) ++
          [(rowId, vec.normalize embedding)]) (nodup_replaced (s.index_keyed level) _ _), true)
      else
        (s.setIndex level ((s.index level).filter fun entry => entry.1 ≠ rowId)
          ((s.index_keyed level).sublist (List.filter_sublist.map _)), false)
  | none =>
      ({ s with
        vecSkills := s.vecSkills.assign (skillId, level) embedding
        vec_keyed := OrderedDict.nodup_keys_assign s.vec_keyed }, true)

/-- Both vectors of a row; whatever fails ends it. -/
def embedSkill (env : SkillEnv V) (row : SkillRow) (rowId : Nat) (s : SkillState V) :
    SkillState V :=
  match env.embedOne with
  | none => s
  | some embed =>
      match embed (row.skillName ++ ": " ++ row.summary) with
      | none => s
      | some first =>
          let written := writeVec .l1 rowId row.skillId first s
          if written.2 ∧ row.summaryL2 ≠ "" then
            match embed (row.skillName ++ ": " ++ row.summaryL2) with
            | none => written.1
            | some second => (writeVec .l2 rowId row.skillId second written.1).1
          else written.1

def upsertSkill (env : SkillEnv V) (entry : SkillEntry) (s : SkillState V) :
    String × SkillState V :=
  let row := newRow env.now entry
  let stored := { s with skills := upsertRow row s.skills }
  match stored.skills.rows.find? fun other => other.skillId = row.skillId with
  | none => (row.skillId, stored)
  | some here => (row.skillId, embedSkill env row here.id stored)

/-! ## Reading -/

/-- `ORDER BY s.created_at DESC, s.rowid DESC LIMIT 1`. -/
def SkillState.currentRow (s : SkillState V) (skillName : String) : Option SkillRow :=
  newest (fun row => toLex (row.createdAt, row.id))
    (s.skills.rows.filter fun row => row.skillName = skillName)

def getSkill (skillName version : String) (s : SkillState V) : Option SkillEntry :=
  if version ≠ "" then
    (s.skills.rows.find? fun row => row.skillId = skillName ++ "@" ++ version).map
      SkillRow.toEntry
  else (s.currentRow skillName).map SkillRow.toEntry

/-! ## Search -/

structure SkillRequest where
  query : String
  topK : Nat := 5
  minScore : Rat := 3 / 10
  /-- Empty: no boundary. -/
  tags : List String := []
  riskCeiling : String := "critical"
  indexLevel : String := "l1"

def SkillRequest.level (request : SkillRequest) : VecLevel :=
  if request.indexLevel = "l2" then .l2 else .l1

/-- A row with its score, or with its distance. -/
abbrev SkillHit := SkillRow × Rat

/-- What a search meets outside: exact neighbours of a vector in a `vec0` table, and the scores
of vectors. -/
structure SkillRanking (V : Type) where
  /-- Whether the index takes the vector of a query. -/
  fits : V → Bool
  maxNeighbours : Nat
  knn : V → Nat → List (Nat × V) → List (Nat × Rat)
  distance : V → V → Rat
  nearest : ∀ queryVec count index,
    IsNearest (distance queryVec) count index (knn queryVec count index)
  distance_nonneg : ∀ first second, 0 ≤ distance first second
  cosineSimilarity : V → V → Rat
  lower : String → String

/-- The order in which the database gives the rows of a query. -/
structure RowOrder where
  arrange : List SkillHit → List SkillHit
  perm : ∀ rows, (arrange rows).Perm rows

/-- `_cone_where`. -/
def coneWhere (request : SkillRequest) (row : SkillRow) : Bool :=
  riskRank row.riskLevel ≤ riskRank request.riskCeiling ∧
    (request.tags = [] ∨ ∃ tag ∈ request.tags,
      likeAround row.tags.toList ('"' :: tag.toList ++ ['"']))

def l2ToCosine (distance : Rat) : Rat := 1 - distance * distance / 2

/-- `JOIN skills s ON s.key = v.key`. -/
def joined {κ : Type} [DecidableEq κ] (skills : RowTable SkillRow) (key : SkillRow → κ)
    (entries : List (κ × Rat)) : List SkillHit :=
  entries.filterMap fun entry =>
    (skills.rows.find? fun row => key row = entry.1).map fun row => (row, entry.2)

/-- The hits above the threshold in the order of their scores. -/
def scoredHits (request : SkillRequest) (hits : List SkillHit) : List SkillHit :=
  best Prod.snd request.topK (hits.filter fun hit => request.minScore ≤ hit.2)

/-- Without a row on the second level, the first is searched. -/
def orFirstLevel (level : VecLevel) (rows : VecLevel → List SkillHit) : List SkillHit :=
  if rows level = [] ∧ level = .l2 then rows .l1 else rows level

def fetchK (request : SkillRequest) : Nat :=
  if request.tags ≠ [] ∨ request.riskCeiling ≠ "critical" then request.topK * 3 else request.topK

section Search

variable (ranking : SkillRanking V) (order : RowOrder) (request : SkillRequest)

/-- The rows near the vector of the query, with their distances. -/
def nearRows (queryVec : V) (s : SkillState V) (level : VecLevel) : List SkillHit :=
  (joined s.skills SkillRow.id (ranking.knn queryVec (fetchK request) (s.index level))).filter
    fun hit => coneWhere request hit.1

/-- Nothing where the index raises. -/
def vec0Search (vec : VecExtension V) (queryVec : V) (s : SkillState V) :
    Option (List SkillHit) :=
  if ranking.fits queryVec ∧ fetchK request ≤ ranking.maxNeighbours then
    let rows := orFirstLevel request.level fun level =>
      (order.arrange (nearRows ranking request (vec.normalize queryVec) s level)).insertionSort
        fun first second => first.2 ≤ second.2
    some (scoredHits request (rows.map fun hit => (hit.1, l2ToCosine hit.2)))
  else none

/-- The rows with a vector as JSON, with the scores of these. -/
def jsonHits (queryVec : V) (s : SkillState V) (level : VecLevel) : List SkillHit :=
  joined s.skills SkillRow.skillId
    ((s.vecSkills.filter fun entry => entry.1.2 = level).map fun entry =>
      (entry.1.1, ranking.cosineSimilarity queryVec entry.2))

def jsonSearch (queryVec : V) (s : SkillState V) : List SkillHit :=
  scoredHits request <| orFirstLevel request.level fun level =>
    order.arrange ((jsonHits ranking queryVec s level).filter fun hit => coneWhere request hit.1)

/-- `text.split()`. -/
def splitWords (text : String) : List (List Char) :=
  (text.toList.splitOnP isSpace).filter (· ≠ [])

def keywordScore (row : SkillRow) : Rat :=
  let text := ranking.lower (" ".intercalate [row.describe, row.summary, row.skillName])
  let words := splitWords (ranking.lower request.query)
  let hits := words.filter fun word => word <:+: text.toList
  (hits.length : Rat) / (max words.length 1 : Nat)

/-- The rows that are `LIKE` the query, with their scores. -/
def keywordHits (s : SkillState V) : List SkillHit :=
  (s.skills.rows.filter fun row =>
    likeAround row.describe.toList request.query.toList ||
      likeAround row.summary.toList request.query.toList ||
        likeAround row.skillName.toList request.query.toList).map fun row =>
    (row, keywordScore ranking request row)

def keywordSearch (s : SkillState V) : List SkillHit :=
  best Prod.snd request.topK <|
    (order.arrange ((keywordHits ranking request s).filter fun hit =>
      coneWhere request hit.1)).filter fun hit => 0 < hit.2

/-- The hits of `search_cone`. -/
def searchHits (env : SkillEnv V) (s : SkillState V) : Option (List SkillHit) :=
  match env.embedOne.bind fun embed => embed request.query with
  | none => some (keywordSearch ranking order request s)
  | some queryVec =>
      match s.vecExtension with
      | some vec => vec0Search ranking order request vec queryVec s
      | none => some (jsonSearch ranking order request queryVec s)

end Search

structure SkillSearchResult where
  skillName : String
  score : Rat
  summary : String
  summaryL2 : String
  version : String
  boundToolName : String
  riskLevel : String
  tags : List String

def makeSearchResult (hit : SkillHit) : SkillSearchResult where
  skillName := hit.1.skillName
  score := hit.2
  summary := hit.1.summary
  summaryL2 := hit.1.summaryL2
  version := hit.1.version
  boundToolName := hit.1.boundToolName
  riskLevel := orElse hit.1.riskLevel "low"
  tags := loadsTags hit.1.tags

def searchCone (ranking : SkillRanking V) (order : RowOrder) (env : SkillEnv V)
    (request : SkillRequest) (s : SkillState V) : Option (List SkillSearchResult) :=
  (searchHits ranking order request env s).map (List.map makeSearchResult)

/-! ## Runs -/

def step (s : SkillState V) (call : SkillEnv V × SkillEntry) : SkillState V :=
  (upsertSkill call.1 call.2 s).2

end YouMi.Mcp.SkillStore
