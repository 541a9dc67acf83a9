import Mathlib.Tactic.Linarith
import YouMi.Library.Best
import YouMi.Mcp.ToolStore.Search

/-!
# The two vector paths

`_json_search` filters first and ranks what is left.  `_vec0_search` fetches a
fixed number of neighbours and filters these, so it returns the same tools only
if enough rows of the cone are among the neighbours.
-/

namespace YouMi.Mcp.ToolStore

open YouMi.Library

variable {V : Type}

/-! ## Exact vectors -/

/-- The entries nearest to a query, with their distances. -/
def IsNearest (distance : V → Rat) (count : Nat) (index : List (Nat × V))
    (near : List (Nat × Rat)) : Prop :=
  ∃ chosen rest, index.Perm (chosen ++ rest) ∧
    near = chosen.map (fun entry => (entry.1, distance entry.2)) ∧
    chosen.length = min count index.length ∧
    ∀ entry ∈ chosen, ∀ other ∈ rest, distance entry.2 ≤ distance other.2

/--
The index finds the exact neighbours, holds the vectors of the table of JSON
vectors for the same tools, and scores are computed without error.
-/
structure ExactVectors (ranking : Ranking V) (vec : VecExtension V) (distance : V → V → Rat)
    (queryVec : V) (indexed plain : StoreState V) : Prop where
  sameTools : indexed.tools = plain.tools
  sameTags : indexed.toolTags = plain.toolTags
  keyed : IndexKeyed indexed
  nearest : ∀ count level, IsNearest (distance (vec.normalize queryVec)) count
    (indexed.index level) (ranking.knn (vec.normalize queryVec) count (indexed.index level))
  distance_nonneg : ∀ first second, 0 ≤ distance first second
  sameVectors : ∀ level, ∀ row ∈ plain.tools.rows, ∀ stored,
    (row.id, stored) ∈ indexed.index level ↔
      ∃ vector, jsonVector plain level row = some vector ∧ vec.normalize vector = stored
  l2ToCosine_eq : ∀ length, ranking.l2ToCosine length = 1 - length * length / 2
  cosine_eq : ∀ level, ∀ row ∈ plain.tools.rows, ∀ vector,
    jsonVector plain level row = some vector →
      ranking.cosineSimilarity queryVec vector =
        ranking.l2ToCosine (distance (vec.normalize queryVec) (vec.normalize vector))

/-! ## What each path ranks -/

/-- The number of neighbours that `_vec0_search` fetches. -/
def fetchK (request : SearchRequest) : Nat :=
  if request.cone.exclude ≠ [] ∨ request.cone.excludeLineages ≠ [] ∨ request.cone.tags ≠ [] ∨
      request.cone.riskCeiling ≠ "critical" then
    request.topK * 3
  else request.topK

/-- The row ids of the neighbours. -/
def neighbours (ranking : Ranking V) (request : SearchRequest) (vec : VecExtension V)
    (queryVec : V) (level : VecLevel) (s : StoreState V) : List Nat :=
  (ranking.knn (vec.normalize queryVec) (fetchK request) (s.index level)).map Prod.fst

/-- The rows of the cone that score high enough. -/
def eligibleHits (ranking : Ranking V) (request : SearchRequest) (queryVec : V) (level : VecLevel)
    (s : StoreState V) : List Hit :=
  (jsonRows ranking request queryVec level s).filter fun hit => request.minScore ≤ hit.2

/-- The rows that `_vec0_search` finds, with their scores. -/
def nearRows (ranking : Ranking V) (request : SearchRequest) (vec : VecExtension V) (queryVec : V)
    (level : VecLevel) (s : StoreState V) : List Hit :=
  (vec0Rows ranking request (vec.normalize queryVec) level s).map fun hit =>
    (hit.1, ranking.l2ToCosine hit.2)

/-- Those that score high enough. -/
def nearHits (ranking : Ranking V) (request : SearchRequest) (vec : VecExtension V) (queryVec : V)
    (level : VecLevel) (s : StoreState V) : List Hit :=
  (nearRows ranking request vec queryVec level s).filter fun hit => request.minScore ≤ hit.2

/--
Enough eligible rows are among the neighbours: as many as are asked for, or all
there are.
-/
def EnoughNear (ranking : Ranking V) (request : SearchRequest) (vec : VecExtension V)
    (queryVec : V) (level : VecLevel) (indexed plain : StoreState V) : Prop :=
  request.topK ≤ ((eligibleHits ranking request queryVec level plain).filter fun hit =>
      hit.1.id ∈ neighbours ranking request vec queryVec level indexed).length ∨
    ∀ hit ∈ eligibleHits ranking request queryVec level plain,
      hit.1.id ∈ neighbours ranking request vec queryVec level indexed

/-- On the second level, some row of the cone is among the neighbours if there is one at all. -/
def FindsSecondLevel (ranking : Ranking V) (request : SearchRequest) (vec : VecExtension V)
    (queryVec : V) (indexed plain : StoreState V) : Prop :=
  request.level = .l2 → jsonRows ranking request queryVec .l2 plain ≠ [] →
    ∃ hit ∈ jsonRows ranking request queryVec .l2 plain,
      hit.1.id ∈ neighbours ranking request vec queryVec .l2 indexed

/-- The level on which rows are found. -/
def usedLevel (level : VecLevel) (rows : VecLevel → List Hit) : VecLevel :=
  if rows level = [] ∧ level = .l2 then .l1 else level

theorem orFirstLevel_eq (level : VecLevel) (rows : VecLevel → List Hit) :
    orFirstLevel level rows = rows (usedLevel level rows) := by
  unfold orFirstLevel usedLevel
  split <;> rfl

theorem scoredHits_eq (request : SearchRequest) (hits : List Hit) :
    scoredHits request hits =
      best Prod.snd request.topK (hits.filter fun hit => request.minScore ≤ hit.2) := rfl

theorem mem_vec0Rows_iff {ranking : Ranking V} {request : SearchRequest} {queryVec : V}
    {level : VecLevel} {s : StoreState V} {hit : Hit} :
    hit ∈ vec0Rows ranking request queryVec level s ↔
      (hit.1 ∈ s.tools.rows ∧ coneWhere request.cone s hit.1) ∧
        (hit.1.id, hit.2) ∈ ranking.knn queryVec (fetchK request) (s.index level) := by
  unfold vec0Rows
  rw [List.mem_insertionSort, List.mem_filter, decide_eq_true_eq, List.mem_filterMap]
  constructor
  · rintro ⟨⟨⟨id, length⟩, near, found⟩, inside⟩
    obtain ⟨row, isRow, rfl⟩ := Option.map_eq_some_iff.mp found
    have same : row.id = id := by simpa using List.find?_some isRow
    subst same
    exact ⟨⟨List.mem_of_find?_eq_some isRow, inside⟩, near⟩
  · rintro ⟨⟨member, inside⟩, near⟩
    refine ⟨⟨_, near, ?_⟩, inside⟩
    cases found : s.tools.rows.find? fun row => row.id = hit.1.id with
    | none => exact absurd (List.find?_eq_none.mp found hit.1 member) (by simp)
    | some row =>
        have same : row.id = hit.1.id := by simpa using List.find?_some found
        have equal : row = hit.1 :=
          RowTable.eq_of_rowid (List.mem_of_find?_eq_some found) member same
        rw [equal]
        rfl

theorem mem_jsonRows_iff {ranking : Ranking V} {request : SearchRequest} {queryVec : V}
    {level : VecLevel} {s : StoreState V} {hit : Hit} :
    hit ∈ jsonRows ranking request queryVec level s ↔
      (hit.1 ∈ s.tools.rows ∧ coneWhere request.cone s hit.1) ∧
        ∃ vector, jsonVector s level hit.1 = some vector ∧
          hit.2 = ranking.cosineSimilarity queryVec vector := by
  unfold jsonRows
  rw [List.mem_filterMap]
  constructor
  · rintro ⟨row, member, found⟩
    obtain ⟨vector, isVector, rfl⟩ := Option.map_eq_some_iff.mp found
    rw [List.mem_filter, decide_eq_true_eq] at member
    exact ⟨member, vector, isVector, rfl⟩
  · rintro ⟨member, vector, isVector, score⟩
    refine ⟨hit.1, List.mem_filter.mpr ⟨member.1, decide_eq_true member.2⟩, ?_⟩
    rw [isVector, Option.map_some, ← score]

theorem eligibleHits_nodup (ranking : Ranking V) (request : SearchRequest) (queryVec : V)
    (level : VecLevel) (s : StoreState V) :
    (eligibleHits ranking request queryVec level s).Nodup := by
  refine List.Nodup.filter _ (List.Nodup.of_map Prod.fst ?_)
  rw [jsonRows_map]
  exact s.tools.nodup.filter _

section Exact

variable {ranking : Ranking V} {vec : VecExtension V} {distance : V → V → Rat} {queryVec : V}
  {indexed plain : StoreState V}
  (agree : ExactVectors ranking vec distance queryVec indexed plain)
  (request : SearchRequest) (level : VecLevel)

include agree

namespace ExactVectors

theorem antitone {near far : V} (closer : distance (vec.normalize queryVec) near ≤
    distance (vec.normalize queryVec) far) :
    ranking.l2ToCosine (distance (vec.normalize queryVec) far) ≤
      ranking.l2ToCosine (distance (vec.normalize queryVec) near) := by
  rw [agree.l2ToCosine_eq, agree.l2ToCosine_eq]
  have nonneg := agree.distance_nonneg (vec.normalize queryVec) near
  have squares := mul_self_le_mul_self nonneg closer
  linarith

theorem mem_cone_iff {row : ToolRow} :
    row ∈ indexed.tools.rows ∧ coneWhere request.cone indexed row ↔
      row ∈ plain.tools.rows ∧ coneWhere request.cone plain row := by
  unfold coneWhere
  rw [agree.sameTools, agree.sameTags]

/-- A row with a vector under its id has the score of that vector. -/
theorem score_eq {row : ToolRow} (member : row ∈ plain.tools.rows) {stored : V}
    (entry : (row.id, stored) ∈ indexed.index level) :
    ∃ vector, jsonVector plain level row = some vector ∧
      ranking.cosineSimilarity queryVec vector =
        ranking.l2ToCosine (distance (vec.normalize queryVec) stored) := by
  obtain ⟨vector, isVector, rfl⟩ := (agree.sameVectors level row member stored).mp entry
  exact ⟨vector, isVector, agree.cosine_eq level row member vector isVector⟩

/-- The rows that are found are those of the cone among the neighbours. -/
theorem mem_nearRows_iff {hit : Hit} :
    hit ∈ nearRows ranking request vec queryVec level indexed ↔
      hit ∈ jsonRows ranking request queryVec level plain ∧
        hit.1.id ∈ neighbours ranking request vec queryVec level indexed := by
  unfold nearRows neighbours
  obtain ⟨chosen, rest, perm, near, -⟩ := agree.nearest (fetchK request) level
  rw [List.mem_map]
  constructor
  · rintro ⟨⟨row, length⟩, member, rfl⟩
    obtain ⟨inCone, isNear⟩ := mem_vec0Rows_iff.mp member
    have here := (agree.mem_cone_iff request).mp inCone
    refine ⟨mem_jsonRows_iff.mpr ⟨here, ?_⟩, List.mem_map_of_mem isNear⟩
    rw [near] at isNear
    obtain ⟨⟨id, stored⟩, isChosen, same⟩ := List.mem_map.mp isNear
    obtain ⟨rfl, rfl⟩ : id = row.id ∧ distance (vec.normalize queryVec) stored = length :=
      Prod.mk.inj same
    have entry := perm.mem_iff.mpr (List.mem_append_left rest isChosen)
    obtain ⟨vector, isVector, equal⟩ := agree.score_eq level here.1 entry
    exact ⟨vector, isVector, equal.symm⟩
  · rintro ⟨member, isNear⟩
    obtain ⟨inCone, vector, isVector, isScore⟩ := mem_jsonRows_iff.mp member
    obtain ⟨⟨id, length⟩, found, same⟩ := List.mem_map.mp isNear
    dsimp only at same
    subst same
    have chosenEntry := found
    rw [near] at chosenEntry
    obtain ⟨⟨id', stored⟩, isChosen, same⟩ := List.mem_map.mp chosenEntry
    obtain ⟨sameId, rfl⟩ := Prod.mk.inj same
    dsimp only at sameId
    subst sameId
    have entry := perm.mem_iff.mpr (List.mem_append_left rest isChosen)
    obtain ⟨vector', isVector', equal⟩ := agree.score_eq level inCone.1 entry
    rw [isVector] at isVector'
    cases isVector'
    refine ⟨(hit.1, distance (vec.normalize queryVec) stored), ?_, ?_⟩
    · exact mem_vec0Rows_iff.mpr ⟨(agree.mem_cone_iff request).mpr inCone, found⟩
    · rw [← equal, ← isScore]

theorem mem_nearHits_iff {hit : Hit} :
    hit ∈ nearHits ranking request vec queryVec level indexed ↔
      hit ∈ eligibleHits ranking request queryVec level plain ∧
        hit.1.id ∈ neighbours ranking request vec queryVec level indexed := by
  unfold nearHits eligibleHits
  rw [List.mem_filter, List.mem_filter, agree.mem_nearRows_iff]
  exact and_right_comm

/-- No eligible row outside of the neighbours scores above one of the near rows. -/
theorem nearHits_upper {hit other : Hit}
    (near : hit ∈ nearHits ranking request vec queryVec level indexed)
    (eligible : other ∈ eligibleHits ranking request queryVec level plain)
    (far : other ∉ nearHits ranking request vec queryVec level indexed) : other.2 ≤ hit.2 := by
  obtain ⟨hitEligible, hitNear⟩ := (agree.mem_nearHits_iff request level).mp near
  have notNear : other.1.id ∉ neighbours ranking request vec queryVec level indexed :=
    fun isNear => far ((agree.mem_nearHits_iff request level).mpr ⟨eligible, isNear⟩)
  obtain ⟨chosen, rest, perm, result, -, closer⟩ := agree.nearest (fetchK request) level
  unfold neighbours at hitNear notNear
  rw [result, List.map_map] at hitNear notNear
  -- The near row has an entry that is chosen, the other row one that is not.
  obtain ⟨⟨id, stored⟩, isChosen, sameId⟩ := List.mem_map.mp hitNear
  change id = hit.1.id at sameId
  subst sameId
  obtain ⟨inCone, vector, isVector, score⟩ :=
    mem_jsonRows_iff.mp (List.mem_filter.mp hitEligible).1
  obtain ⟨inCone', vector', isVector', score'⟩ :=
    mem_jsonRows_iff.mp (List.mem_filter.mp eligible).1
  have entry := perm.mem_iff.mpr (List.mem_append_left rest isChosen)
  obtain ⟨same, isSame, equal⟩ := agree.score_eq level inCone.1 entry
  rw [isVector] at isSame
  cases isSame
  have entry' := (agree.sameVectors level other.1 inCone'.1 _).mpr ⟨vector', isVector', rfl⟩
  have isRest : (other.1.id, vec.normalize vector') ∈ rest := by
    rcases List.mem_append.mp (perm.mem_iff.mp entry') with wasChosen | left
    · exact absurd (List.mem_map_of_mem wasChosen) notNear
    · exact left
  rw [score, score', equal, agree.cosine_eq level other.1 inCone'.1 vector' isVector']
  exact agree.antitone (closer _ isChosen _ isRest)

theorem nearHits_nodup : (nearHits ranking request vec queryVec level indexed).Nodup := by
  have rows := vec0Rows_nodup ranking request (vec.normalize queryVec) level agree.keyed
  refine List.Nodup.filter _ (List.Nodup.of_map Prod.fst ?_)
  unfold nearRows
  rw [List.map_map]
  exact rows

/-- On one level, both paths agree exactly if enough eligible rows are near. -/
theorem scored_same_iff :
    SameUpToTies Prod.snd request.topK
        (scoredHits request (nearRows ranking request vec queryVec level indexed))
        (scoredHits request (jsonRows ranking request queryVec level plain)) ↔
      EnoughNear ranking request vec queryVec level indexed plain := by
  have nodup := agree.nearHits_nodup request level
  have nodup' := eligibleHits_nodup ranking request queryVec level plain
  have inside : nearHits ranking request vec queryVec level indexed ⊆
      eligibleHits ranking request queryVec level plain :=
    fun hit member => ((agree.mem_nearHits_iff request level).mp member).1
  rw [scoredHits_eq, scoredHits_eq]
  refine (sameUpToTies_best_iff nodup inside
    (fun _ near _ => agree.nearHits_upper request level near) nodup').trans (or_congr ?_ ?_)
  · have perm : (nearHits ranking request vec queryVec level indexed).Perm
        ((eligibleHits ranking request queryVec level plain).filter fun hit =>
          hit.1.id ∈ neighbours ranking request vec queryVec level indexed) := by
      refine (List.perm_ext_iff_of_nodup nodup (nodup'.filter _)).mpr fun hit => ?_
      rw [List.mem_filter, decide_eq_true_eq]
      exact agree.mem_nearHits_iff request level
    rw [perm.length_eq]
  · refine forall₂_congr fun hit eligible => ?_
    rw [agree.mem_nearHits_iff]
    exact and_iff_right eligible

theorem usedLevel_eq (finds : FindsSecondLevel ranking request vec queryVec indexed plain) :
    usedLevel request.level (fun level =>
        vec0Rows ranking request (vec.normalize queryVec) level indexed) =
      usedLevel request.level (fun level => jsonRows ranking request queryVec level plain) := by
  unfold usedLevel
  refine if_congr (and_congr_left fun isSecond => ?_) rfl rfl
  dsimp only
  rw [isSecond]
  have found : vec0Rows ranking request (vec.normalize queryVec) .l2 indexed = [] ↔
      nearRows ranking request vec queryVec .l2 indexed = [] := List.map_eq_nil_iff.symm
  rw [found]
  constructor
  · intro none
    by_contra some
    obtain ⟨hit, member, near⟩ := finds isSecond some
    have here := (agree.mem_nearRows_iff request .l2).mpr ⟨member, near⟩
    rw [none] at here
    exact absurd here List.not_mem_nil
  · intro none
    refine List.eq_nil_iff_forall_not_mem.mpr fun hit near => ?_
    have here := ((agree.mem_nearRows_iff request .l2).mp near).1
    rw [none] at here
    exact absurd here List.not_mem_nil

end ExactVectors

end Exact

/-- Vectors that are all alike, and already normalized. -/
def unitVectors : VecExtension Unit := ⟨id, fun _ => true⟩

/-- Three versions of a tool, and another tool, all with the same vector. -/
def crowded : List (Env Unit × Call Unit) :=
  [(atTime 1, .upsertTool { plainEntry "0.0.1" with embedding := some () }),
    (atTime 2, .upsertTool { plainEntry "0.0.2" with embedding := some () }),
    (atTime 3, .upsertTool { plainEntry "0.0.3" with embedding := some () }),
    (atTime 4, .upsertTool { plainEntry "0.0.1" with toolName := "other", embedding := some () })]

/-- A search for one tool that is not called so. -/
def otherThan (toolName : String) : SearchRequest :=
  ⟨"tool", 1, 0, ⟨[toolName], [], [], "critical"⟩, "l1"⟩

theorem exactVectors_crowded :
    ExactVectors unitRanking unitVectors (fun _ _ => 0) ()
      (run step (StoreState.empty (some unitVectors)) crowded)
      (run step (StoreState.empty none) crowded) where
  sameTools := rfl
  sameTags := rfl
  keyed := (reachableState_run (some unitVectors) crowded).indexKeyed
  nearest := by
    intro count level
    generalize (run step (StoreState.empty (some unitVectors)) crowded).index level = index
    refine ⟨index.take count, index.drop count, ?_, rfl, List.length_take, ?_⟩
    · rw [List.take_append_drop]
    · exact fun _ _ _ _ => le_refl 0
  distance_nonneg := fun _ _ => le_refl 0
  sameVectors := by
    intro level row member stored
    have each : ∀ row ∈ (run step (StoreState.empty none) crowded).tools.rows,
        (row.id, ()) ∈ (run step (StoreState.empty (some unitVectors)) crowded).index level ↔
          (jsonVector (run step (StoreState.empty none) crowded) level row).isSome = true := by
      cases level <;> decide
    exact (each row member).trans (Option.isSome_iff_exists.trans
      (exists_congr fun vector => (and_iff_left rfl).symm))
  l2ToCosine_eq := fun _ => rfl
  cosine_eq := fun _ _ _ _ _ => by norm_num [unitRanking]

end YouMi.Mcp.ToolStore
