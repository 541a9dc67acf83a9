import YouMi.Library.Runs
import Mathlib.Data.List.Count

/-!
# Requests and the answers that follow them

A transcript is a list of lines: a remark, a request that carries some ids, or
an answer to one id.  It is paired when the lines between a request and the
next one answer each of its ids exactly once and no other id, and when nothing
is answered before the first request.

A process that writes a transcript and now and then shows it to a reader shows
only paired ones exactly when it shows none while a request is left open.
-/

namespace YouMi.Library

/-- One line of a transcript. -/
inductive Line (ι : Type*) where
  | remark
  | request (ids : List ι)
  | answer (id : ι)

namespace Line

variable {ι : Type*}

/-- The ids answered before the next request. -/
def answers : List (Line ι) → List ι
  | [] => []
  | remark :: rest => answers rest
  | request _ :: _ => []
  | answer id :: rest => id :: answers rest

/-- No line is a request. -/
def Unasking (lines : List (Line ι)) : Prop := ∀ line ∈ lines, ∀ ids, line ≠ request ids

/-- Every line is a remark. -/
def Remarks (lines : List (Line ι)) : Prop := ∀ line ∈ lines, line = remark

theorem Remarks.unasking {lines : List (Line ι)} (remarks : Remarks lines) : Unasking lines := by
  intro line member ids asking
  rw [remarks line member] at asking
  cases asking

@[simp]
theorem answers_of_remarks {lines : List (Line ι)} (remarks : Remarks lines) :
    answers lines = [] := by
  induction lines with
  | nil => rfl
  | cons line rest ih =>
      rw [remarks line List.mem_cons_self]
      exact ih fun other member => remarks other (List.mem_cons_of_mem _ member)

theorem answers_append_remarks (lines : List (Line ι)) {tail : List (Line ι)}
    (remarks : Remarks tail) : answers (lines ++ tail) = answers lines := by
  induction lines with
  | nil => exact answers_of_remarks remarks
  | cons line rest ih =>
      cases line with
      | remark => exact ih
      | request ids => rfl
      | answer id => exact congrArg (id :: ·) ih

theorem answers_append_request (lines : List (Line ι)) (ids : List ι) (tail : List (Line ι)) :
    answers (lines ++ request ids :: tail) = answers lines := by
  induction lines with
  | nil => rfl
  | cons line rest ih =>
      cases line with
      | remark => exact ih
      | request others => rfl
      | answer id => exact congrArg (id :: ·) ih

/-- Answers come out in the order they were written, up to a remark or a request. -/
theorem answers_map_answer_append (ids : List ι) {tail : List (Line ι)} (remarks : Remarks tail) :
    answers (ids.map answer ++ tail) = ids := by
  induction ids with
  | nil => exact answers_of_remarks remarks
  | cons id rest ih => exact congrArg (id :: ·) ih

theorem unasking_map_answer_append (ids : List ι) {tail : List (Line ι)}
    (remarks : Remarks tail) : Unasking (ids.map answer ++ tail) := by
  intro line member
  rcases List.mem_append.mp member with given | left
  · obtain ⟨id, _, rfl⟩ := List.mem_map.mp given
    exact nofun
  · exact remarks.unasking line left

section Paired

variable [DecidableEq ι]

/-- Each id is given exactly once, and nothing else is given. -/
def Answered (ids given : List ι) : Prop :=
  (∀ id ∈ ids, given.count id = 1) ∧ ∀ id ∈ given, id ∈ ids

instance (ids given : List ι) : Decidable (Answered ids given) :=
  inferInstanceAs (Decidable (_ ∧ _))

/-- What follows a request up to the next one answers it. -/
def RequestsAnswered : List (Line ι) → Prop
  | [] => True
  | request ids :: rest => Answered ids (answers rest) ∧ RequestsAnswered rest
  | _ :: rest => RequestsAnswered rest

/-- Requests are answered, and there is no answer before the first request. -/
def Paired (lines : List (Line ι)) : Prop := answers lines = [] ∧ RequestsAnswered lines

theorem answered_nil_iff (given : List ι) : Answered [] given ↔ given = [] := by
  constructor
  · intro answered
    exact List.eq_nil_iff_forall_not_mem.mpr fun id member =>
      List.not_mem_nil (answered.2 id member)
  · rintro rfl
    exact ⟨nofun, nofun⟩

/-- A request whose first id alone is answered is answered when that id is the only one. -/
theorem answered_replicate_iff (id : ι) (others : List ι) (count : Nat) :
    Answered (id :: others) (List.replicate count id) ↔
      (∀ other ∈ others, other = id) ∧ count = 1 := by
  constructor
  · intro answered
    have once : count = 1 := by
      have counted := answered.1 id List.mem_cons_self
      rwa [List.count_replicate_self] at counted
    refine ⟨fun other member => ?_, once⟩
    have counted := answered.1 other (List.mem_cons_of_mem _ member)
    rw [List.count_replicate] at counted
    by_contra apart
    have unequal : (id == other) = false := beq_eq_false_iff_ne.mpr (Ne.symm apart)
    rw [unequal] at counted
    cases counted
  · rintro ⟨same, rfl⟩
    refine ⟨fun other member => ?_, fun other member => ?_⟩
    · rcases List.mem_cons.mp member with rfl | later
      · exact List.count_replicate_self
      · rw [same other later]
        exact List.count_replicate_self
    · rw [List.eq_of_mem_replicate member]
      exact List.mem_cons_self

theorem requestsAnswered_of_unasking {lines : List (Line ι)} (unasking : Unasking lines) :
    RequestsAnswered lines := by
  induction lines with
  | nil => trivial
  | cons line rest ih =>
      have later : RequestsAnswered rest :=
        ih fun other member => unasking other (List.mem_cons_of_mem _ member)
      cases line with
      | remark => exact later
      | request ids => exact (unasking _ List.mem_cons_self ids rfl).elim
      | answer id => exact later

theorem requestsAnswered_append_remarks (lines : List (Line ι)) {tail : List (Line ι)}
    (remarks : Remarks tail) : RequestsAnswered (lines ++ tail) ↔ RequestsAnswered lines := by
  induction lines with
  | nil => exact iff_of_true (requestsAnswered_of_unasking remarks.unasking) trivial
  | cons line rest ih =>
      cases line with
      | remark => exact ih
      | request ids =>
          have same : answers (rest ++ tail) = answers rest := answers_append_remarks rest remarks
          exact and_congr (iff_of_eq (congrArg (Answered ids) same)) ih
      | answer id => exact ih

theorem requestsAnswered_append_request (lines : List (Line ι)) (ids : List ι)
    {tail : List (Line ι)} (unasking : Unasking tail) :
    RequestsAnswered (lines ++ request ids :: tail) ↔
      RequestsAnswered lines ∧ Answered ids (answers tail) := by
  induction lines with
  | nil =>
      have later := requestsAnswered_of_unasking unasking
      exact ⟨fun both => ⟨trivial, both.1⟩, fun both => ⟨both.2, later⟩⟩
  | cons line rest ih =>
      cases line with
      | remark => exact ih
      | request others =>
          have same : answers (rest ++ request ids :: tail) = answers rest :=
            answers_append_request rest ids tail
          exact (and_congr (iff_of_eq (congrArg (Answered others) same)) ih).trans and_assoc.symm
      | answer id => exact ih

theorem paired_of_remarks {lines : List (Line ι)} (remarks : Remarks lines) : Paired lines :=
  ⟨answers_of_remarks remarks, requestsAnswered_of_unasking remarks.unasking⟩

/-- Lines that ask nothing and answer nothing are paired. -/
theorem paired_of_quiet {lines : List (Line ι)}
    (quiet : ∀ line ∈ lines, line = remark ∨ line = request []) : Paired lines := by
  induction lines with
  | nil => exact ⟨rfl, trivial⟩
  | cons line rest ih =>
      obtain ⟨unanswered, answered⟩ :=
        ih fun other member => quiet other (List.mem_cons_of_mem _ member)
      rcases quiet line List.mem_cons_self with rfl | rfl
      · exact ⟨unanswered, answered⟩
      · exact ⟨rfl, (answered_nil_iff _).mpr unanswered, answered⟩

theorem paired_append_remarks (lines : List (Line ι)) {tail : List (Line ι)}
    (remarks : Remarks tail) : Paired (lines ++ tail) ↔ Paired lines := by
  unfold Paired
  rw [answers_append_remarks lines remarks, requestsAnswered_append_remarks lines remarks]

theorem paired_append_request (lines : List (Line ι)) (ids : List ι) {tail : List (Line ι)}
    (unasking : Unasking tail) :
    Paired (lines ++ request ids :: tail) ↔ Paired lines ∧ Answered ids (answers tail) := by
  unfold Paired
  rw [answers_append_request, requestsAnswered_append_request lines ids unasking]
  exact and_assoc.symm

end Paired

end Line

open Line

/-- How a transcript goes on: by remarks, from a new beginning, or by one request. -/
inductive Move (ι : Type*) where
  | remarks
  | restart
  | exchange (ids given : List ι)

namespace Move

variable {ι : Type*}

/-- The transcript goes on from the first to the second as the move says. -/
inductive Moves : Move ι → List (Line ι) → List (Line ι) → Prop
  | remarks {before tail : List (Line ι)} (quiet : Remarks tail) :
      Moves .remarks before (before ++ tail)
  | restart {before after : List (Line ι)} (quiet : Remarks after) :
      Moves .restart before after
  | exchange {before tail : List (Line ι)} (ids : List ι) (unasking : Unasking tail) :
      Moves (.exchange ids (answers tail)) before (before ++ request ids :: tail)

variable [DecidableEq ι]

/-- Whether a request is open after the move, given whether one was open before it. -/
def opens (opened : Prop) : Move ι → Prop
  | .remarks => opened
  | .restart => False
  | .exchange ids given => opened ∨ ¬ Answered ids given

theorem Moves.opens_iff {move : Move ι} {before after : List (Line ι)} {opened : Prop}
    (moves : Moves move before after) (openedIff : opened ↔ ¬ Paired before) :
    move.opens opened ↔ ¬ Paired after := by
  cases moves with
  | remarks quiet => exact openedIff.trans (not_congr (paired_append_remarks _ quiet)).symm
  | restart quiet => exact iff_of_false id fun unpaired => unpaired (paired_of_remarks quiet)
  | exchange ids unasking =>
      change opened ∨ _ ↔ _
      rw [openedIff, paired_append_request _ ids unasking, ← not_and_or]

end Move

section Shown

variable {ι σ α : Type*} [DecidableEq ι] (step : σ → α → σ)
  (shows : σ → α → Prop) (opens : σ → α → Prop → Prop)

/-- No step shows the transcript while a request is open. -/
def NeverShownOpen : σ → Prop → List α → Prop
  | _, _, [] => True
  | state, opened, action :: rest =>
      (shows state action → ¬ opened) ∧
        NeverShownOpen (step state action) (opens state action opened) rest

variable {step shows opens} (transcript : σ → List (Line ι))
  (shown : σ → List (List (Line ι)))

/-- A run shows only paired transcripts exactly when it shows none while a request is open. -/
theorem shown_paired_iff_of_opens
    (opensStep : ∀ state action opened, (opened ↔ ¬ Paired (transcript state)) →
      (opens state action opened ↔ ¬ Paired (transcript (step state action))))
    (shownStep : ∀ state action, ∃ count,
      shown (step state action) = shown state ++ List.replicate count (transcript state) ∧
        (shows state action ↔ count ≠ 0))
    {state : σ} {opened : Prop} (openedIff : opened ↔ ¬ Paired (transcript state))
    (actions : List α) :
    (∀ lines ∈ shown (run step state actions), Paired lines) ↔
      (∀ lines ∈ shown state, Paired lines) ∧
        NeverShownOpen step shows opens state opened actions := by
  induction actions generalizing state opened with
  | nil => exact (and_iff_left trivial).symm
  | cons action rest ih =>
      obtain ⟨count, shownEq, showsIff⟩ := shownStep state action
      have atStep : (∀ lines ∈ shown (step state action), Paired lines) ↔
          (∀ lines ∈ shown state, Paired lines) ∧ (shows state action → ¬ opened) := by
        rw [shownEq, List.forall_mem_append, showsIff, openedIff, not_not]
        refine and_congr_right fun _ => ?_
        constructor
        · intro all some
          exact all _ (List.mem_replicate.mpr ⟨some, rfl⟩)
        · intro paired lines member
          obtain ⟨some, rfl⟩ := List.mem_replicate.mp member
          exact paired some
      rw [run_cons, ih (opensStep state action opened openedIff), atStep]
      exact and_assoc

/-- The same where each step goes on as a move says. -/
theorem shown_paired_iff
    (moves : ∀ state action, ∃ move : Move ι,
      move.Moves (transcript state) (transcript (step state action)) ∧
        ∀ opened, opens state action opened ↔ move.opens opened)
    (shownStep : ∀ state action, ∃ count,
      shown (step state action) = shown state ++ List.replicate count (transcript state) ∧
        (shows state action ↔ count ≠ 0))
    {state : σ} {opened : Prop} (openedIff : opened ↔ ¬ Paired (transcript state))
    (actions : List α) :
    (∀ lines ∈ shown (run step state actions), Paired lines) ↔
      (∀ lines ∈ shown state, Paired lines) ∧
        NeverShownOpen step shows opens state opened actions := by
  refine shown_paired_iff_of_opens transcript shown ?_ shownStep openedIff actions
  intro state action opened openedIff
  obtain ⟨move, moved, opensIff⟩ := moves state action
  exact (opensIff opened).trans (moved.opens_iff openedIff)

/-- Steps that leave nothing open never show an open request. -/
theorem neverShownOpen_of_closed {actions : List α}
    (closed : ∀ action ∈ actions, ∀ state, ¬ opens state action False) (state : σ) :
    NeverShownOpen step shows opens state False actions := by
  induction actions generalizing state with
  | nil => trivial
  | cons action rest ih =>
      have still : opens state action False = False :=
        eq_false (closed action List.mem_cons_self state)
      refine ⟨fun _ => id, ?_⟩
      rw [still]
      exact ih (fun other member => closed other (List.mem_cons_of_mem _ member)) _

end Shown

end YouMi.Library
