import YouMi.Coordinator.Plan
import YouMi.Coordinator.ToolApproval
import YouMi.Core.Prompt
import YouMi.Core.ToolExecutor
import YouMi.Library.Covered
import YouMi.Mcp.Cone

/-!
# The memory of plans

`PlanMemory` of `coordinator/plan_memory.py` looks for the plans of similar tasks: among the
nearest vectors of an index, among the plans that were updated last, or by keywords.
-/

namespace YouMi.Coordinator

open YouMi.Core YouMi.Library YouMi.Python

/-! ## The model -/

/-- A row of `workflow_plans` with its vectors in `vec_plans_idx` and in `plan_vectors`. -/
structure PlanRow (V : Type) where
  planId : String
  taskText : String := ""
  planJson : String
  success : Bool
  updatedAt : Nat
  indexed : Option V := none
  vector : Option V := none
  deriving DecidableEq

structure PlanStore (V : Type) where
  rows : List (PlanRow V)
  distinct : (rows.map PlanRow.planId).Nodup

/-- What a search uses: exact distances and similarities, the parser of a plan, the rows of a
query in the order of `ORDER BY updated_at DESC`, and `int / int`. -/
structure PlanRetrieval (V κ : Type) where
  similarityThreshold : κ
  orderBy : List (PlanRow V) → List (PlanRow V)
  parse : String → Option WorkflowPlan
  /-- The vector has the dimension of the index. -/
  fits : V → Bool
  /-- The largest `k` of a query for the nearest neighbours. -/
  maxNeighbours : Nat
  normalize : V → V
  distance : V → V → κ
  l2ToCosine : κ → κ
  similarity : V → V → κ
  lower : String → String
  ratio : Nat → Nat → κ

/-- A row whose plan may be returned, the plan and its similarity. -/
abbrev Scored (V κ : Type) := PlanRow V × WorkflowPlan × κ

variable {V κ : Type} [LinearOrder κ]

namespace PlanRetrieval

/-- The step of each loop: the score is compared, then the plan is parsed. -/
def candidate (r : PlanRetrieval V κ) (score : κ) (row : PlanRow V) : Option (Scored V κ) :=
  if r.similarityThreshold ≤ score then (r.parse row.planJson).map fun plan => (row, plan, score)
  else none

/-- `scored.sort(key=..., reverse=True)` and `scored[:top_k]`. -/
def cut (topK : Int) (scored : List (Scored V κ)) : List (Scored V κ) :=
  Mcp.sliceTo topK (byScore (fun entry => entry.2.2) scored)

/-- The rows of the index with their distances, the nearest first. -/
def neighbours (r : PlanRetrieval V κ) (store : PlanStore V) (queryVec : V) :
    List (PlanRow V × κ) :=
  byScore (fun item => OrderDual.toDual item.2) (store.rows.filterMap fun row =>
    row.indexed.map fun vec => (row, r.distance (r.normalize queryVec) vec))

/-- What `_vec0_search` scores: the successful ones among so many neighbours. -/
def nearCandidates (r : PlanRetrieval V κ) (store : PlanStore V) (queryVec : V) (fetchK : Nat) :
    List (Scored V κ) :=
  (((r.neighbours store queryVec).take fetchK).filter fun item => item.1.success).filterMap
    fun item => r.candidate (r.l2ToCosine item.2) item.1

/-- `_vec0_search`, with the rows of the plans; `none` where the query raises. -/
def vec0Search (r : PlanRetrieval V κ) (store : PlanStore V) (queryVec : V) (topK : Int) :
    Option (List (Scored V κ)) :=
  let fetchK := topK * 3
  if r.fits queryVec ∧ 0 ≤ fetchK ∧ fetchK ≤ r.maxNeighbours then
    some (cut topK (r.nearCandidates store queryVec fetchK.toNat))
  else none

def scoreVector (r : PlanRetrieval V κ) (queryVec : V) (row : PlanRow V) :
    Option (Scored V κ) :=
  row.vector.bind fun vec => r.candidate (r.similarity queryVec vec) row

/-- What `_json_search` scores: the successful plans with a vector that were updated last. -/
def recentCandidates (r : PlanRetrieval V κ) (store : PlanStore V) (queryVec : V) :
    List (Scored V κ) :=
  ((r.orderBy (store.rows.filter fun row => row.success && row.vector.isSome)).take 200).filterMap
    (r.scoreVector queryVec)

def jsonSearch (r : PlanRetrieval V κ) (store : PlanStore V) (queryVec : V) (topK : Int) :
    List (Scored V κ) :=
  cut topK (r.recentCandidates store queryVec)

def keywordTokens (r : PlanRetrieval V κ) (text : String) : List (List Char) :=
  (words (r.lower text) ++ (text.toList.filter isChinese).map fun c => [c]).dedup

/-- `_keyword_score`. -/
def keywordScore (r : PlanRetrieval V κ) (text query : String) : κ :=
  if words (r.lower query) = [] then r.ratio 0 1
  else
    let queryTokens := r.keywordTokens query
    r.ratio (queryTokens.filter (r.keywordTokens text).contains).length queryTokens.length

def searchByKeyword (r : PlanRetrieval V κ) (store : PlanStore V) (userTask : String)
    (topK : Int) : List (Scored V κ) :=
  cut topK (((r.orderBy (store.rows.filter fun row => row.success)).take 100).filterMap
    fun row => r.candidate (r.keywordScore row.taskText userTask) row)

end PlanRetrieval

/-- A plan memory: its store, once it is initialized, and whether its connection has the index. -/
structure PlanMemory (V : Type) where
  store : Option (PlanStore V)
  vecAvailable : Bool

namespace PlanMemory

/-- `search_plan`, with what the embedding client answers, if there is one; `none` where it
raises what is not caught. -/
def searchPlan (r : PlanRetrieval V κ) (s : PlanMemory V) (userTask : String) (topK : Int)
    (queryVec : Option (Except Fault V)) : Option (List (WorkflowPlan × κ)) :=
  match s.store with
  | none => some []
  | some store =>
      let byKeyword := (r.searchByKeyword store userTask topK).map Prod.snd
      match queryVec with
      | none => some byKeyword
      | some (.error fault) => if fault.isException then some byKeyword else none
      | some (.ok queryVec) =>
          if s.vecAvailable then
            match r.vec0Search store queryVec topK with
            | some found => some (found.map Prod.snd)
            | none => some byKeyword
          else some ((r.jsonSearch store queryVec topK).map Prod.snd)

end PlanMemory

end YouMi.Coordinator

/-!
## The two searches for plans

The index is asked for three times as many plans as are wanted, and those that failed are
dropped from its answer; the other search ranks the two hundred successful plans that were
updated last.  Each has the best of the successful plans exactly if enough of them are among
what it looks at.
-/

namespace YouMi.Coordinator

open YouMi.Core YouMi.Library YouMi.Python

variable {V κ : Type} [LinearOrder κ]

def similarityOf (entry : Scored V κ) : κ := entry.2.2

namespace PlanRetrieval

/-- The successful plans at or above the threshold. -/
def successful (r : PlanRetrieval V κ) (store : PlanStore V) (queryVec : V) :
    List (Scored V κ) :=
  (store.rows.filter PlanRow.success).filterMap (r.scoreVector queryVec)

/-- The index has the vectors of the plans, and distances stand for the similarities; the rows
of a query are those of the table. -/
structure ExactIndex (r : PlanRetrieval V κ) (store : PlanStore V) (queryVec : V) : Prop where
  ordered : ∀ rows, (r.orderBy rows).Perm rows
  sameVectors : ∀ row ∈ store.rows, row.indexed = row.vector.map r.normalize
  similarity_eq : ∀ row ∈ store.rows, ∀ vec, row.vector = some vec →
    r.l2ToCosine (r.distance (r.normalize queryVec) (r.normalize vec)) =
      r.similarity queryVec vec

/-- Both ways of `search_plan` return the best of the successful plans, in the same order up to
ties. -/
def PathsAgree (r : PlanRetrieval V κ) (store : PlanStore V) (userTask : String) (topK : Int)
    (queryVec : V) : Prop :=
  let best := best similarityOf topK.toNat (r.successful store queryVec)
  let recent := r.jsonSearch store queryVec topK
  PlanMemory.searchPlan r ⟨some store, false⟩ userTask topK (some (.ok queryVec)) =
      some (recent.map Prod.snd) ∧
    SameUpToTies similarityOf topK.toNat recent best ∧
    ∃ near, r.vec0Search store queryVec topK = some near ∧
      PlanMemory.searchPlan r ⟨some store, true⟩ userTask topK (some (.ok queryVec)) =
        some (near.map Prod.snd) ∧
      SameUpToTies similarityOf topK.toNat near best ∧
      SameUpToTies similarityOf topK.toNat near recent

/-- The index takes the query and the number of neighbours, and what either search does not
look at has enough plans above it that it does look at. -/
structure PathsCover (r : PlanRetrieval V κ) (store : PlanStore V) (topK : Int)
    (queryVec : V) : Prop where
  fits : r.fits queryVec = true
  limits : 0 ≤ topK ∧ topK * 3 ≤ r.maxNeighbours
  near : Covered similarityOf topK.toNat (r.nearCandidates store queryVec (topK * 3).toNat)
    (r.successful store queryVec)
  recent : Covered similarityOf topK.toNat (r.recentCandidates store queryVec)
    (r.successful store queryVec)

section Paths

variable {r : PlanRetrieval V κ} {store : PlanStore V} {queryVec : V} {topK : Int}

theorem cut_eq_best (nonneg : 0 ≤ topK) (scored : List (Scored V κ)) :
    cut topK scored = best similarityOf topK.toNat scored :=
  Mcp.sliceTo_of_nonneg nonneg _

/-! ### Each plan at most once -/

theorem row_of_candidate {score : κ} {row : PlanRow V} {entry : Scored V κ}
    (found : r.candidate score row = some entry) : entry.1 = row := by
  unfold candidate at found
  split at found
  · obtain ⟨plan, _, rfl⟩ := Option.map_eq_some_iff.mp found
    rfl
  · cases found

theorem row_of_scoreVector {row : PlanRow V} {entry : Scored V κ}
    (found : r.scoreVector queryVec row = some entry) : entry.1 = row := by
  obtain ⟨vec, _, scored⟩ := Option.bind_eq_some_iff.mp found
  exact row_of_candidate scored

omit [LinearOrder κ] in
/-- Candidates of different rows are different. -/
theorem nodup_filterMap {α : Type} (row : α → PlanRow V) {items : List α}
    {f : α → Option (Scored V κ)} (keeps : ∀ item entry, f item = some entry → entry.1 = row item)
    (distinct : (items.map row).Nodup) : (items.filterMap f).Nodup := by
  refine List.Nodup.of_map Prod.fst (List.Nodup.sublist ?_ distinct)
  clear distinct
  induction items with
  | nil => exact .slnil
  | cons item rest ih =>
      rw [List.filterMap_cons]
      cases found : f item with
      | none => exact ih.cons _
      | some entry =>
          rw [List.map_cons, List.map_cons, keeps item entry found]
          exact ih.cons_cons _

omit [LinearOrder κ] in
theorem nodup_rows (store : PlanStore V) : store.rows.Nodup :=
  List.Nodup.of_map _ store.distinct

theorem nodup_successful : (r.successful store queryVec).Nodup :=
  nodup_filterMap id (fun _ _ => row_of_scoreVector)
    (by rw [List.map_id]; exact (nodup_rows store).filter _)

/-! ### The plans that were updated last -/

theorem nodup_recentCandidates (ordered : ∀ rows, (r.orderBy rows).Perm rows) :
    (r.recentCandidates store queryVec).Nodup := by
  refine nodup_filterMap id (fun _ _ => row_of_scoreVector) ?_
  rw [List.map_id]
  refine List.Nodup.sublist (List.take_sublist _ _) ?_
  exact (ordered _).nodup_iff.mpr ((nodup_rows store).filter _)

theorem recentCandidates_subset (ordered : ∀ rows, (r.orderBy rows).Perm rows) :
    r.recentCandidates store queryVec ⊆ r.successful store queryVec := by
  intro entry member
  obtain ⟨row, recent, scored⟩ := List.mem_filterMap.mp member
  obtain ⟨stored, kept⟩ := List.mem_filter.mp
    ((ordered _).mem_iff.mp (List.mem_of_mem_take recent))
  rw [Bool.and_eq_true] at kept
  exact List.mem_filterMap.mpr ⟨row, List.mem_filter.mpr ⟨stored, kept.1⟩, scored⟩

theorem sameUpToTies_recent_iff (isExact : ExactIndex r store queryVec) (nonneg : 0 ≤ topK) :
    SameUpToTies similarityOf topK.toNat (r.jsonSearch store queryVec topK)
        (best similarityOf topK.toNat (r.successful store queryVec)) ↔
      Covered similarityOf topK.toNat (r.recentCandidates store queryVec)
        (r.successful store queryVec) := by
  unfold jsonSearch
  rw [cut_eq_best nonneg]
  exact sameUpToTies_best_iff_covered (nodup_recentCandidates isExact.ordered)
    (recentCandidates_subset isExact.ordered) nodup_successful

/-! ### The nearest neighbours -/

theorem mem_neighbours {item : PlanRow V × κ} :
    item ∈ r.neighbours store queryVec ↔ item.1 ∈ store.rows ∧
      ∃ vec, item.1.indexed = some vec ∧ item.2 = r.distance (r.normalize queryVec) vec := by
  unfold neighbours
  rw [byScore_perm.mem_iff, List.mem_filterMap]
  constructor
  · rintro ⟨row, stored, found⟩
    obtain ⟨vec, isVec, rfl⟩ := Option.map_eq_some_iff.mp found
    exact ⟨stored, vec, isVec, rfl⟩
  · rintro ⟨stored, vec, isVec, isDistance⟩
    refine ⟨item.1, stored, ?_⟩
    rw [isVec, Option.map_some, ← isDistance]

theorem nodup_neighbours : ((r.neighbours store queryVec).map Prod.fst).Nodup := by
  unfold neighbours
  refine (byScore_perm.map _).nodup_iff.mpr ?_
  rw [List.map_filterMap]
  refine (nodup_rows store).filterMap ?_
  -- A neighbour is the row that it comes from.
  have row_of_neighbour {stored row : PlanRow V}
      (isNear : row ∈ (stored.indexed.map fun vec =>
        (stored, r.distance (r.normalize queryVec) vec)).map Prod.fst) : row = stored := by
    obtain ⟨found, isFound, rfl⟩ := Option.map_eq_some_iff.mp isNear
    obtain ⟨vec, -, rfl⟩ := Option.map_eq_some_iff.mp isFound
    rfl
  intro first second row isFirst isSecond
  exact (row_of_neighbour isFirst).symm.trans (row_of_neighbour isSecond)

theorem nodup_nearCandidates (fetchK : Nat) :
    (r.nearCandidates store queryVec fetchK).Nodup := by
  refine nodup_filterMap Prod.fst (fun _ _ => row_of_candidate) ?_
  exact nodup_neighbours.sublist
    ((List.filter_sublist.trans (List.take_sublist _ _)).map _)

/-- A neighbour is scored by its similarity. -/
theorem nearCandidates_subset (isExact : ExactIndex r store queryVec) (fetchK : Nat) :
    r.nearCandidates store queryVec fetchK ⊆ r.successful store queryVec := by
  intro entry member
  obtain ⟨item, kept, scored⟩ := List.mem_filterMap.mp member
  obtain ⟨isNear, succeeded⟩ := List.mem_filter.mp kept
  obtain ⟨stored, indexed, isIndexed, isDistance⟩ :=
    mem_neighbours.mp (List.mem_of_mem_take isNear)
  rw [isExact.sameVectors item.1 stored] at isIndexed
  obtain ⟨vec, isVec, rfl⟩ := Option.map_eq_some_iff.mp isIndexed
  refine List.mem_filterMap.mpr ⟨item.1, List.mem_filter.mpr ⟨stored, succeeded⟩, ?_⟩
  unfold scoreVector
  rw [isVec, Option.bind_some, ← isExact.similarity_eq item.1 stored vec isVec, ← isDistance]
  exact scored

theorem sameUpToTies_near_iff (isExact : ExactIndex r store queryVec) (fetchK : Nat) :
    SameUpToTies similarityOf topK.toNat
        (best similarityOf topK.toNat (r.nearCandidates store queryVec fetchK))
        (best similarityOf topK.toNat (r.successful store queryVec)) ↔
      Covered similarityOf topK.toNat (r.nearCandidates store queryVec fetchK)
        (r.successful store queryVec) :=
  sameUpToTies_best_iff_covered (nodup_nearCandidates fetchK)
    (nearCandidates_subset isExact fetchK) nodup_successful

/-- The index answers exactly where it takes the query and the number of neighbours. -/
theorem vec0Search_eq_some_iff {near : List (Scored V κ)} :
    r.vec0Search store queryVec topK = some near ↔
      r.fits queryVec = true ∧ (0 ≤ topK ∧ topK * 3 ≤ r.maxNeighbours) ∧
        best similarityOf topK.toNat (r.nearCandidates store queryVec (topK * 3).toNat) = near := by
  unfold vec0Search
  dsimp only
  by_cases limits : r.fits queryVec = true ∧ 0 ≤ topK * 3 ∧ topK * 3 ≤ r.maxNeighbours
  · have nonneg : 0 ≤ topK := by omega
    rw [if_pos limits, Option.some.injEq, cut_eq_best nonneg]
    exact ⟨fun same => ⟨limits.1, ⟨nonneg, limits.2.2⟩, same⟩, fun ⟨_, _, same⟩ => same⟩
  · rw [if_neg limits]
    refine iff_of_false nofun fun ⟨fits, within, _⟩ => limits ⟨fits, ?_, within.2⟩
    omega

end Paths

/-- The two ways of `search_plan` agree on the best of the successful plans exactly where both
look at enough of them. -/
theorem pathsAgree_iff (r : PlanRetrieval V κ) (store : PlanStore V) (userTask : String)
    (topK : Int) (queryVec : V) (isExact : ExactIndex r store queryVec) :
    r.PathsAgree store userTask topK queryVec ↔ r.PathsCover store topK queryVec := by
  constructor
  · rintro ⟨-, isRecent, near, answered, -, isNear, -⟩
    obtain ⟨fits, limits, rfl⟩ := vec0Search_eq_some_iff.mp answered
    exact ⟨fits, limits, (sameUpToTies_near_iff isExact _).mp isNear,
      (sameUpToTies_recent_iff isExact limits.1).mp isRecent⟩
  · rintro ⟨fits, limits, near, recent⟩
    have isRecent := (sameUpToTies_recent_iff isExact limits.1).mpr recent
    have isNear := (sameUpToTies_near_iff isExact _).mpr near
    have answered : r.vec0Search store queryVec topK = some _ :=
      vec0Search_eq_some_iff.mpr ⟨fits, limits, rfl⟩
    refine ⟨rfl, isRecent, _, answered, ?_, isNear, isNear.of_common isRecent⟩
    unfold PlanMemory.searchPlan
    dsimp only
    rw [if_pos rfl, answered]

/-! ## Plans that failed -/

/-- Vectors on a line, of which those at most five apart are similar. -/
def onLine : PlanRetrieval Int Int where
  similarityThreshold := 5
  orderBy := id
  parse := fun _ => some ⟨[]⟩
  fits := fun _ => true
  maxNeighbours := 4096
  normalize := id
  distance := fun first second => |first - second|
  l2ToCosine := fun distance => 10 - distance
  similarity := fun query vec => 10 - |query - vec|
  lower := id
  ratio := fun found all => if found = all then 10 else 0

def planRow (planId : String) (success : Bool) (vec : Int) : PlanRow Int where
  planId := planId
  planJson := "{}"
  success := success
  updatedAt := 0
  indexed := some vec
  vector := some vec

/-- Three plans for the task that failed, and one for a similar task that succeeded. -/
def failedPlans : PlanStore Int where
  rows := [planRow "a" false 0, planRow "b" false 0, planRow "c" false 0, planRow "d" true 1]
  distinct := by decide

theorem exactIndex_failedPlans : onLine.ExactIndex failedPlans 0 where
  ordered := fun rows => .refl rows
  sameVectors := by decide
  similarity_eq := fun _ _ _ _ => rfl

theorem not_pathsAgree_failedPlans : onLine.ExactIndex failedPlans 0 ∧
    ¬onLine.PathsAgree failedPlans "task" 1 0 := by
  refine ⟨exactIndex_failedPlans, ?_⟩
  rintro ⟨-, -, near, answered, -, isNear, -⟩
  have nothing : (onLine.vec0Search failedPlans 0 1).map List.length = some 0 := by decide
  rw [answered] at nothing
  have lengths := congrArg List.length isNear.1
  rw [List.length_map, List.length_map, Option.some.inj nothing] at lengths
  revert lengths
  decide

theorem pathsAgree_iff_failedPlans : onLine.PathsAgree failedPlans "task" 1 0 ↔
    onLine.PathsCover failedPlans 1 0 :=
  pathsAgree_iff onLine failedPlans "task" 1 0 exactIndex_failedPlans

end PlanRetrieval

end YouMi.Coordinator
