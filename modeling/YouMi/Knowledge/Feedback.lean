import Mathlib.Data.List.Triplewise
import YouMi.Knowledge.ResolvedEntries
import YouMi.Knowledge.TenantKnowledge

/-!
# Negative feedback

`FeedbackCollector` of `knowledge/feedback.py` counts the feedback on a tool in a listing of
its own, and looks for the tools to repair in a listing of all of them.  Either listing has
the newest entries only.
-/

namespace YouMi.Knowledge

open YouMi.Library YouMi.Python

variable {V κ : Type}

structure FeedbackCollector where
  memory : GlobalMemory
  negativeThreshold : Int := 3

/-- `(e.metadata or {}).get("rating") == "negative" and not e.resolved`. -/
def KnowledgeEntry.isNegative (entry : KnowledgeEntry V) : Bool :=
  PyVal.pyEq (Dict.get entry.metadata "rating") (.str "negative") && !entry.resolved

/-- A tool that should be repaired. -/
structure ToolFeedback where
  toolName : String
  negativeCount : Nat
  suggestion : String
  deriving DecidableEq

namespace FeedbackCollector

/-- The feedback entries of a tool, or of all tools, the newest first. -/
def feedback (r : Retrieval V κ) (s : FeedbackCollector) (base : KnowledgeBase V)
    (toolName : Option String) (limit : Int) : List (KnowledgeEntry V) :=
  (s.memory.selected r base toolName (some .humanFeedback) false limit).map KnowledgeRow.toEntry

def negativeFeedbackCount (r : Retrieval V κ) (s : FeedbackCollector) (base : KnowledgeBase V)
    (toolName : String) : Nat :=
  (s.feedback r base (some toolName) 500).countP KnowledgeEntry.isNegative

/-- The negative entries that there are of each tool. -/
def negativeCounts (entries : List (KnowledgeEntry V)) : OrderedDict String Nat :=
  (entries.filter KnowledgeEntry.isNegative).foldl
    (OrderedDict.gather KnowledgeEntry.toolName 0 fun count _ => count + 1) []

def toolFeedback (name : String) (count : Nat) : ToolFeedback where
  toolName := name
  negativeCount := count
  suggestion := "工具 '" ++ name ++ "' 累计收到 " ++ toString count ++ " 条未处理负反馈，" ++
    "建议生成问题汇报并修正工具描述"

def toolsOverThreshold (r : Retrieval V κ) (s : FeedbackCollector) (base : KnowledgeBase V) :
    List ToolFeedback :=
  let counts := negativeCounts (s.feedback r base none 1000)
  ((counts.filter fun entry => s.negativeThreshold ≤ entry.2).map fun entry =>
    toolFeedback entry.1 entry.2).insertionSort
      fun first second => second.negativeCount ≤ first.negativeCount

/-! ## Counts -/

theorem lookup_negativeCounts (entries : List (KnowledgeEntry V)) (toolName : String) :
    ((negativeCounts entries).lookup toolName).getD 0 =
      entries.countP fun entry => entry.toolName = toolName && entry.isNegative := by
  have counted (items : List (KnowledgeEntry V)) (start : Nat) :
      items.foldl (fun count _ => count + 1) start = start + items.length := by
    induction items generalizing start with
    | nil => rfl
    | cons item rest ih =>
        rw [List.foldl_cons, ih, List.length_cons]
        omega
  unfold negativeCounts
  rw [OrderedDict.lookup_foldl_gather, counted, List.filter_filter, List.countP_eq_length_filter]
  exact Nat.zero_add _

theorem mem_toolsOverThreshold (r : Retrieval V κ) {s : FeedbackCollector}
    (base : KnowledgeBase V) (positive : 1 ≤ s.negativeThreshold) (toolName : String) :
    toolName ∈ (s.toolsOverThreshold r base).map ToolFeedback.toolName ↔
      s.negativeThreshold ≤ ((s.feedback r base none 1000).countP
        fun entry => entry.toolName = toolName && entry.isNegative : Nat) := by
  have distinct : (negativeCounts (s.feedback r base none 1000)).keys.Nodup :=
    OrderedDict.nodup_keys_foldl_gather _ _ _ _ List.nodup_nil
  rw [← lookup_negativeCounts, List.mem_map]
  unfold toolsOverThreshold
  constructor
  · rintro ⟨tool, member, rfl⟩
    obtain ⟨entry, isEntry, rfl⟩ := List.mem_map.mp ((List.mem_insertionSort _).mp member)
    obtain ⟨stands, reaches⟩ := List.mem_filter.mp isEntry
    have found := OrderedDict.lookup_eq_some_of_mem distinct stands
    rw [toolFeedback, found]
    exact of_decide_eq_true reaches
  · intro reaches
    cases found : (negativeCounts (s.feedback r base none 1000)).lookup toolName with
    | none =>
        rw [found, Option.getD_none] at reaches
        omega
    | some count =>
        rw [found, Option.getD_some] at reaches
        have stands := OrderedDict.mem_of_lookup found
        refine ⟨toolFeedback toolName count, (List.mem_insertionSort _).mpr
          (List.mem_map_of_mem (List.mem_filter.mpr ⟨stands, decide_eq_true reaches⟩)), rfl⟩

/-- The first `limit` elements have more than so many that satisfy the test if and only if the
next one that does is among them. -/
theorem lt_countP_take_iff {α : Type} {p : α → Bool} {limit n : Nat} {items : List α} :
    n < (items.take limit).countP p ↔ items.findIdxNth p n < min limit items.length := by
  induction items generalizing limit n with
  | nil => simp
  | cons item rest ih =>
      cases limit with
      | zero => simp
      | succ limit =>
          rw [List.take_succ_cons, List.length_cons, Nat.add_min_add_right]
          cases accepted : p item with
          | false =>
              rw [List.countP_cons_of_neg (by simp [accepted]), ih,
                List.findIdxNth_cons_of_neg accepted, Nat.add_lt_add_iff_right]
          | true =>
              rw [List.countP_cons_of_pos accepted]
              cases n with
              | zero =>
                  rw [List.findIdxNth_cons_zero_of_pos accepted]
                  exact iff_of_true (Nat.succ_pos _) (Nat.succ_pos _)
              | succ n =>
                  rw [List.findIdxNth_cons_succ_of_pos accepted, Nat.add_lt_add_iff_right,
                    Nat.add_lt_add_iff_right, ih]

/-! ## Agreement -/

/-- A tool is to be repaired if and only if its own count reaches the threshold. -/
def CountsAgree (r : Retrieval V κ) (s : FeedbackCollector) (base : KnowledgeBase V)
    (toolName : String) : Prop :=
  toolName ∈ (s.toolsOverThreshold r base).map ToolFeedback.toolName ↔
    s.negativeThreshold ≤ s.negativeFeedbackCount r base toolName

/-- The negative entry of the tool that reaches the threshold is among the first five hundred
entries of the tool if and only if it is among the first thousand of all; a listing without
a limit has all entries in their order. -/
def ReachedAlike (r : Retrieval V κ) (s : FeedbackCollector) (base : KnowledgeBase V)
    (toolName : String) : Prop :=
  let last := s.negativeThreshold.toNat - 1
  let own := s.feedback r base (some toolName) (-1)
  let all := s.feedback r base none (-1)
  own.findIdxNth KnowledgeEntry.isNegative last < min 500 own.length ↔
    all.findIdxNth (fun entry => entry.toolName = toolName && entry.isNegative) last <
      min 1000 all.length

section Agreement

variable {r : Retrieval V κ} {s : FeedbackCollector} {base : KnowledgeBase V} {toolName : String}

theorem feedback_eq_take (tool : Option String) (limit : Nat) :
    s.feedback r base tool limit = (s.feedback r base tool (-1)).take limit := by
  unfold feedback GlobalMemory.selected GlobalMemory.limitedTo
  rw [if_neg (by omega), if_pos (by omega), Int.toNat_natCast, List.map_take]

theorem le_countP_take_iff {α : Type} {p : α → Bool} {threshold : Int}
    (positive : 1 ≤ threshold) (limit : Nat) (items : List α) :
    threshold ≤ ((items.take limit).countP p : Nat) ↔
      items.findIdxNth p (threshold.toNat - 1) < min limit items.length := by
  rw [← lt_countP_take_iff]
  omega

/-- The two operations agree on a tool exactly where the threshold is reached in both of
their listings or in neither. -/
theorem countsAgree_iff (r : Retrieval V κ) (s : FeedbackCollector) (base : KnowledgeBase V)
    (toolName : String) (positive : 1 ≤ s.negativeThreshold) :
    s.CountsAgree r base toolName ↔ s.ReachedAlike r base toolName := by
  have own := le_countP_take_iff (p := KnowledgeEntry.isNegative) positive 500
    (s.feedback r base (some toolName) (-1))
  have all := le_countP_take_iff
    (p := fun entry => entry.toolName = toolName && entry.isNegative) positive 1000
    (s.feedback r base none (-1))
  rw [← feedback_eq_take] at own all
  unfold CountsAgree ReachedAlike negativeFeedbackCount
  rw [mem_toolsOverThreshold r base positive]
  exact (iff_congr all own).trans iff_comm

/-- Where the listings have room for all feedback they reach the threshold alike. -/
theorem reachedAlike_of_room (ordered : ∀ rows, (r.orderBy rows).Perm rows)
    (ownRoom : (s.feedback r base (some toolName) (-1)).length ≤ 500)
    (room : (s.feedback r base none (-1)).length ≤ 1000) :
    s.ReachedAlike r base toolName := by
  have same : (s.feedback r base (some toolName) (-1)).countP KnowledgeEntry.isNegative =
      (s.feedback r base none (-1)).countP
        fun entry => entry.toolName = toolName && entry.isNegative := by
    unfold feedback GlobalMemory.selected GlobalMemory.limitedTo
    rw [if_pos (by decide), if_pos (by decide), List.countP_map, List.countP_map,
      (ordered _).countP_eq, (ordered _).countP_eq, List.countP_filter, List.countP_filter]
    refine List.countP_congr fun row _ => ?_
    have name : row.toEntry.toolName = row.entry.toolName := rfl
    simp only [Function.comp_apply, GlobalMemory.ofTool, name, Option.all_some, Option.all_none,
      Bool.false_and, Bool.not_false, Bool.and_true, Bool.true_and, Bool.and_eq_true,
      decide_eq_true_eq]
    tauto
  unfold ReachedAlike
  dsimp only
  rw [Nat.min_eq_right ownRoom, Nat.min_eq_right room, List.findIdxNth_lt_length_iff,
    List.findIdxNth_lt_length_iff, same]

end Agreement

/-! ## One negative entry among many -/

/-- Feedback on a tool, the newest first; only the oldest is negative. -/
def feedbackRow (count n : Nat) : String × KnowledgeRow Int :=
  (String.ofList (List.replicate n 'e'),
    { entry :=
        { entryId := String.ofList (List.replicate n 'e'), category := .humanFeedback
          toolName := "search", tenant := "t", createdAt := 0, updatedAt := count - n
          metadata := [("rating", .str (if n + 1 = count then "negative" else "positive"))] } })

def rated (count : Nat) : KnowledgeBase Int where
  entries := (List.range count).map (feedbackRow count)

def firstComplaint : FeedbackCollector := ⟨GlobalMemory.ofTenantT, 1⟩

theorem not_countsAgree_rated :
    ¬firstComplaint.CountsAgree GlobalMemory.onLine (rated 501) "search" := by
  intro agree
  have listed : "search" ∈ (firstComplaint.toolsOverThreshold GlobalMemory.onLine
      (rated 501)).map ToolFeedback.toolName := by decide +kernel
  have none : firstComplaint.negativeFeedbackCount GlobalMemory.onLine (rated 501) "search" = 0 := by
    decide +kernel
  have reaches := agree.mp listed
  rw [none] at reaches
  exact absurd reaches (by decide)

theorem countsAgree_iff_rated :
    firstComplaint.CountsAgree GlobalMemory.onLine (rated 2) "search" ↔
      firstComplaint.ReachedAlike GlobalMemory.onLine (rated 2) "search" :=
  countsAgree_iff GlobalMemory.onLine firstComplaint (rated 2) "search" (by decide)

end FeedbackCollector

end YouMi.Knowledge
