import Mathlib.Algebra.GroupWithZero.Nat
import Mathlib.Data.List.Sort
import YouMi.Python.Text

/-!
# Prompts from layers

`PromptAssembler` of `core/prompt.py`: layers under names, each with a priority and a budget,
joined into one text of about so many tokens.
-/

namespace YouMi.Core

open YouMi.Python

/-! ## Token estimates -/

/-- `'\u4e00' <= c <= '\u9fff'`. -/
def isChinese (c : Char) : Bool := 0x4e00 ≤ c.toNat && c.toNat ≤ 0x9fff

/-- `int(value)`, for a value that is not negative. -/
def truncate (value : Float) : Nat := value.toUInt64.toNat

/-- `estimate_tokens` for a text of so many characters, some of which are Chinese. -/
def estimateOf (chineseChars totalChars : Nat) : Nat :=
  if totalChars = 0 then 0
  else
    let chineseRatio := chineseChars.toFloat / totalChars.toFloat
    if 0.5 < chineseRatio then max 1 (truncate (totalChars.toFloat / 2))
    else if 0.1 < chineseRatio then max 1 (truncate (totalChars.toFloat / 3))
    else max 1 (truncate (totalChars.toFloat / 4))

def estimateTokens (text : String) : Nat :=
  estimateOf (text.toList.countP isChinese) text.toList.length

/-! ## Layers -/

/-- The priorities begin with zero. -/
instance neZeroPriorities : NeZero 101 := ⟨by decide⟩

structure PromptLayer where
  name : String
  content : String := ""
  priority : Fin 101 := 50
  /-- Zero for no limit. -/
  tokenBudget : Nat := 0
  deriving DecidableEq

namespace PromptLayer

def estimatedTokens (layer : PromptLayer) : Nat := estimateTokens layer.content

/-- The tokens that `assemble` counts for the layer. -/
def charge (layer : PromptLayer) : Nat :=
  if 0 < layer.tokenBudget ∧ layer.tokenBudget < layer.estimatedTokens then layer.tokenBudget
  else layer.estimatedTokens

/-- `content.strip()`. -/
def text (layer : PromptLayer) : String := String.ofList (trim isSpace layer.content.toList)

/-- `int(len(content) * keep_ratio)`. -/
def keptLength (layer : PromptLayer) (remaining tokens : Nat) : Nat :=
  let keepRatio := if 0 < tokens then remaining.toFloat / tokens.toFloat else 0
  truncate (layer.content.toList.length.toFloat * keepRatio)

def truncationMarker : String := "\n[... 内容已截断 ...]"

/-- The layer with the first characters of its content. -/
def cutTo (layer : PromptLayer) (length : Nat) : PromptLayer :=
  { layer with content := String.ofList (layer.content.toList.take length) ++ truncationMarker }

end PromptLayer

/-! ## The assembler -/

structure PromptAssembler where
  layers : List PromptLayer := []

/-- The loop that gives the remaining tokens to the layers. -/
def allocate : Int → List (PromptLayer × Nat) → List PromptLayer
  | _, [] => []
  | remaining, (layer, tokens) :: rest =>
      if layer.priority = 0 then layer :: allocate remaining rest
      else if remaining ≤ 0 then allocate remaining rest
      else if tokens ≤ remaining then layer :: allocate (remaining - tokens) rest
      else layer.cutTo (layer.keptLength remaining.toNat tokens) :: allocate 0 rest

/-- `_join_layers`. -/
def joinLayers (layers : List PromptLayer) : String :=
  "\n\n".intercalate ((layers.filter fun layer => layer.text ≠ "").map PromptLayer.text)

namespace PromptAssembler

def addLayer (assembler : PromptAssembler) (layer : PromptLayer) : PromptAssembler where
  layers := assembler.layers.filter (fun other => other.name ≠ layer.name) ++ [layer]

/-- `layers`: by priority, and of one priority as they were added. -/
def sorted (assembler : PromptAssembler) : List PromptLayer :=
  assembler.layers.insertionSort fun first second => first.priority ≤ second.priority

/-- What `assemble` hands to `_join_layers`. -/
def emitted (assembler : PromptAssembler) (maxTokens : Int) : List PromptLayer :=
  let processed := assembler.sorted.map fun layer => (layer, layer.charge)
  let totalTokens : Nat := (processed.map Prod.snd).sum
  if maxTokens ≤ 0 ∨ totalTokens ≤ maxTokens then assembler.sorted
  else
    let reserved := processed.filter fun entry => entry.1.priority = 0
    let reservedTokens : Nat := (reserved.map Prod.snd).sum
    allocate (maxTokens - reservedTokens) processed

def assemble (assembler : PromptAssembler) (maxTokens : Int) : String :=
  if assembler.layers = [] then "" else joinLayers (assembler.emitted maxTokens)

end PromptAssembler

/-! ## Their laws -/

@[simp]
theorem estimateOf_zero (chineseChars : Nat) : estimateOf chineseChars 0 = 0 := if_pos rfl

theorem estimateOf_pos {totalChars : Nat} (some : totalChars ≠ 0) (chineseChars : Nat) :
    0 < estimateOf chineseChars totalChars := by
  unfold estimateOf
  rw [if_neg some]
  dsimp only
  split
  · exact Nat.le_max_left ..
  · split <;> exact Nat.le_max_left ..

/-- Only an empty text counts nothing. -/
theorem estimateTokens_eq_zero_iff {text : String} : estimateTokens text = 0 ↔ text = "" := by
  unfold estimateTokens
  constructor
  · intro none
    by_contra some
    have length : text.toList.length ≠ 0 := by simpa using some
    exact (estimateOf_pos length _).ne' none
  · rintro rfl
    rfl

namespace PromptLayer

variable {layer : PromptLayer}

theorem charge_eq_zero_iff : layer.charge = 0 ↔ layer.content = "" := by
  unfold charge
  split
  · rename_i limited
    have some : layer.estimatedTokens ≠ 0 := by omega
    exact iff_of_false limited.1.ne' fun empty => some (estimateTokens_eq_zero_iff.mpr empty)
  · exact estimateTokens_eq_zero_iff

theorem text_of_content_eq_empty (empty : layer.content = "") : layer.text = "" := by
  unfold text
  rw [empty]
  rfl

end PromptLayer

namespace PromptAssembler

variable {assembler : PromptAssembler}

theorem perm_sorted : assembler.sorted.Perm assembler.layers := List.perm_insertionSort _ _

theorem pairwise_sorted :
    assembler.sorted.Pairwise fun first second => first.priority ≤ second.priority := by
  have total : Std.Total fun first second : PromptLayer => first.priority ≤ second.priority :=
    ⟨fun first second => le_total first.priority second.priority⟩
  have transitive :
      IsTrans PromptLayer fun first second => first.priority ≤ second.priority :=
    ⟨fun _ _ _ lower upper => le_trans lower upper⟩
  exact List.pairwise_insertionSort _ _

/-- Layers of one priority stand in the order in which they were added. -/
theorem filter_sorted (priority : Fin 101) :
    assembler.sorted.filter (fun layer => layer.priority = priority) =
      assembler.layers.filter fun layer => layer.priority = priority := by
  have total : Std.Total fun first second : PromptLayer => first.priority ≤ second.priority :=
    ⟨fun first second => le_total first.priority second.priority⟩
  have transitive :
      IsTrans PromptLayer fun first second => first.priority ≤ second.priority :=
    ⟨fun _ _ _ lower upper => le_trans lower upper⟩
  have alike : (assembler.layers.filter fun layer => layer.priority = priority).Pairwise
      fun first second => first.priority ≤ second.priority := by
    refine List.pairwise_of_forall_mem_list fun first hfirst second hsecond => ?_
    have first_eq := of_decide_eq_true (List.mem_filter.mp hfirst).2
    have second_eq := of_decide_eq_true (List.mem_filter.mp hsecond).2
    exact (first_eq.trans second_eq.symm).le
  have stands := (List.sublist_insertionSort alike List.filter_sublist).filter
    fun layer => decide (layer.priority = priority)
  rw [List.filter_filter] at stands
  simp only [Bool.and_self] at stands
  have perm : assembler.sorted.Perm assembler.layers := perm_sorted
  have lengths := (perm.filter fun layer => decide (layer.priority = priority)).length_eq
  exact (stands.eq_of_length lengths.symm).symm

/-- The layers that are added come after those that keep their names. -/
theorem layers_foldl_addLayer (added : List PromptLayer) (assembler : PromptAssembler) :
    (added.foldl addLayer assembler).layers =
      assembler.layers.filter (fun layer => layer.name ∉ added.map PromptLayer.name) ++
        added.pwFilter fun first second => first.name ≠ second.name := by
  induction added generalizing assembler with
  | nil => simp
  | cons layer rest ih =>
      have last : (∀ other ∈ rest.pwFilter fun first second => first.name ≠ second.name,
          layer.name ≠ other.name) ↔ layer.name ∉ rest.map PromptLayer.name := by
        rw [List.forall_mem_pwFilter fun apart => ?_, List.mem_map]
        · exact ⟨fun apart ⟨other, member, same⟩ => apart other member same.symm,
            fun absent other member same => absent ⟨other, member, same.symm⟩⟩
        · by_contra both
          rw [not_or, not_not, not_not] at both
          exact apart (both.1.trans both.2)
      rw [List.foldl_cons, ih]
      unfold addLayer
      rw [List.filter_append, List.filter_filter]
      have others : (assembler.layers.filter fun other =>
          decide (other.name ∉ rest.map PromptLayer.name) && decide (other.name ≠ layer.name)) =
          assembler.layers.filter fun other =>
            decide (other.name ∉ (layer :: rest).map PromptLayer.name) := by
        refine List.filter_congr fun other _ => ?_
        rw [← Bool.decide_and, decide_eq_decide, List.map_cons, List.mem_cons, not_or, and_comm]
      rw [others, List.append_assoc]
      congr 1
      by_cases named : layer.name ∈ rest.map PromptLayer.name
      · rw [List.pwFilter_cons_of_neg fun apart => last.mp apart named,
          List.filter_cons_of_neg (by simpa using named), List.filter_nil, List.nil_append]
      · rw [List.pwFilter_cons_of_pos (last.mpr named),
          List.filter_cons_of_pos (by simpa using named), List.filter_nil, List.singleton_append]

end PromptAssembler

end YouMi.Core
