import Mathlib.Data.List.Infix

/-!
# Templates

`str.format` reads a template from left to right: literal text, doubled braces, and
replacement fields of a name, a conversion and a format specification.  What a field is
replaced with is not read again.  How a field is evaluated is left open.
-/

namespace YouMi.Python

/-- A replacement field `{name!conversion:spec}`. -/
structure ReplacementField where
  name : List Char
  conversion : Option Char := none
  spec : List Char := []
  deriving DecidableEq

inductive Markup where
  | literal (c : Char)
  | field (field : ReplacementField)
  /-- `ValueError`; nothing after it is read. -/
  | malformed (message : String)
  deriving DecidableEq

/-- Where the reader stands; what it has read of a field is in reverse. -/
inductive MarkupMode where
  | text
  | name (read : List Char) (inBracket : Bool)
  | conversion (name : List Char)
  | converted (name : List Char) (conversion : Char)
  | spec (name : List Char) (conversion : Option Char) (depth : Nat) (read : List Char)

/-- The markup of a template. -/
def markup : MarkupMode → List Char → List Markup
  | .text, [] => []
  | .text, '\x7b' :: [] => [.malformed "Single '\x7b' encountered in format string"]
  | .text, '\x7b' :: '\x7b' :: rest => .literal '\x7b' :: markup .text rest
  | .text, '\x7b' :: rest => markup (.name [] false) rest
  | .text, '\x7d' :: '\x7d' :: rest => .literal '\x7d' :: markup .text rest
  | .text, '\x7d' :: _ => [.malformed "Single '\x7d' encountered in format string"]
  | .text, c :: rest => .literal c :: markup .text rest
  | .name _ _, [] => [.malformed "expected '\x7d' before end of string"]
  | .name read true, c :: rest => markup (.name (c :: read) (c ≠ ']')) rest
  | .name read false, c :: rest =>
      if c = '\x7b' then [.malformed "unexpected '\x7b' in field name"]
      else if c = '\x7d' then .field { name := read.reverse } :: markup .text rest
      else if c = ':' then markup (.spec read.reverse none 0 []) rest
      else if c = '!' then markup (.conversion read.reverse) rest
      else markup (.name (c :: read) (c = '[')) rest
  | .conversion _, [] => [.malformed "end of string while looking for conversion specifier"]
  | .conversion name, c :: rest => markup (.converted name c) rest
  | .converted _ _, [] => [.malformed "unmatched '\x7b' in format spec"]
  | .converted name conversion, c :: rest =>
      if c = '\x7d' then .field { name, conversion := some conversion } :: markup .text rest
      else if c = ':' then markup (.spec name (some conversion) 0 []) rest
      else [.malformed "expected ':' after conversion specifier"]
  | .spec _ _ _ _, [] => [.malformed "unmatched '\x7b' in format spec"]
  | .spec name conversion depth read, c :: rest =>
      if c = '\x7d' ∧ depth = 0 then
        .field { name, conversion, spec := read.reverse } :: markup .text rest
      else
        markup (.spec name conversion
          (if c = '\x7b' then depth + 1 else if c = '\x7d' then depth - 1 else depth)
          (c :: read)) rest

def markupOf (template : String) : List Markup := markup .text template.toList

section

variable {ε : Type*} (valueError : String → ε) (render : ReplacementField → Except ε String)

/-- The text of the markup, each field rendered in its place; the first failure ends it. -/
def renderMarkup : List Markup → Except ε String
  | [] => .ok ""
  | .literal c :: rest => (renderMarkup rest).map fun text => String.singleton c ++ text
  | .field field :: rest =>
      match render field with
      | .error e => .error e
      | .ok rendered => (renderMarkup rest).map fun text => rendered ++ text
  | .malformed message :: _ => .error (valueError message)

/-- `template.format(…)` -/
def format (template : String) : Except ε String := renderMarkup valueError render (markupOf template)

variable {valueError render}

theorem map_eq_ok_iff {α β : Type*} {result : Except ε α} {f : α → β} {b : β} :
    result.map f = .ok b ↔ ∃ a, result = .ok a ∧ f a = b := by
  cases result with
  | error e => exact iff_of_false nofun fun ⟨_, impossible, _⟩ => nomatch impossible
  | ok a =>
      constructor
      · intro same
        cases same
        exact ⟨a, rfl, rfl⟩
      · rintro ⟨_, ⟨⟩, rfl⟩
        rfl

theorem map_eq_error_iff {α β : Type*} {result : Except ε α} {f : α → β} {e : ε} :
    result.map f = .error e ↔ result = .error e := by
  cases result with
  | error e' => exact ⟨fun same => by cases same; rfl, fun same => by cases same; rfl⟩
  | ok a => exact iff_of_false nofun nofun

/-- What a field is replaced with stands in the text. -/
theorem infix_renderMarkup {field : ReplacementField} {rendered text : String}
    {pieces : List Markup} (member : .field field ∈ pieces) (isRendered : render field = .ok rendered)
    (done : renderMarkup valueError render pieces = .ok text) :
    rendered.toList <:+: text.toList := by
  induction pieces generalizing text with
  | nil => cases member
  | cons piece rest ih =>
      cases piece with
      | literal c =>
          obtain ⟨tail, rendersTail, rfl⟩ := map_eq_ok_iff.mp done
          rw [String.toList_append]
          exact (ih ((List.mem_cons.mp member).resolve_left nofun) rendersTail).trans
            (List.suffix_append _ _).isInfix
      | field other =>
          rw [renderMarkup] at done
          split at done
          · cases done
          · rename_i first isFirst
            obtain ⟨tail, rendersTail, rfl⟩ := map_eq_ok_iff.mp done
            rw [String.toList_append]
            rcases List.mem_cons.mp member with same | later
            · cases same
              cases isFirst.symm.trans isRendered
              exact (List.prefix_append _ _).isInfix
            · exact (ih later rendersTail).trans (List.suffix_append _ _).isInfix
      | malformed message => cases done

/-- A template fails by a flaw of its own, or because one of its fields fails. -/
theorem renderMarkup_eq_error {pieces : List Markup} {e : ε}
    (failed : renderMarkup valueError render pieces = .error e) :
    (∃ message, .malformed message ∈ pieces ∧ e = valueError message) ∨
      ∃ field, .field field ∈ pieces ∧ render field = .error e := by
  have later {piece : Markup} {rest : List Markup}
      (found : (∃ message, .malformed message ∈ rest ∧ e = valueError message) ∨
        ∃ field, .field field ∈ rest ∧ render field = .error e) :
      (∃ message, .malformed message ∈ piece :: rest ∧ e = valueError message) ∨
        ∃ field, .field field ∈ piece :: rest ∧ render field = .error e :=
    found.imp (fun ⟨message, inside, same⟩ => ⟨message, List.mem_cons_of_mem _ inside, same⟩)
      fun ⟨field, inside, fails⟩ => ⟨field, List.mem_cons_of_mem _ inside, fails⟩
  induction pieces with
  | nil => cases failed
  | cons piece rest ih =>
      cases piece with
      | literal c => exact later (ih (map_eq_error_iff.mp failed))
      | field field =>
          rw [renderMarkup] at failed
          split at failed
          · rename_i e' fails
            cases failed
            exact .inr ⟨field, List.mem_cons_self, fails⟩
          · exact later (ih (map_eq_error_iff.mp failed))
      | malformed message =>
          cases failed
          exact .inl ⟨message, List.mem_cons_self, rfl⟩

end

end YouMi.Python
