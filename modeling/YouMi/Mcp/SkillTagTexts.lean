import YouMi.Mcp.SkillStore

/-!
# Tags as JSON text

The tags that a skill was given last are read again from their text.  A `LIKE` on that text finds
the listed tags, and only these, where the tags have none of the characters that mean something
to JSON or to `LIKE`, and no capital letters of ASCII.
-/

namespace YouMi.Mcp.SkillStore

open YouMi.Library YouMi.Python

variable {V : Type}

/-! ## Tags that are stored -/

theorem loadsTags_dumpsTags (tags : List String) : loadsTags (dumpsTags tags) = tags := by
  have some : dumpsTags tags ≠ "" := by
    unfold dumpsTags
    rw [Json.dumps]
    simp
  have texts : (tags.map fun tag => Json.str tag.toList) =
      (tags.map String.toList).map Json.str := by
    rw [List.map_map]
    rfl
  have read : Json.loads (dumpsTags tags).toList =
      .some (.list ((tags.map String.toList).map .str)) := by
    unfold dumpsTags
    rw [String.toList_ofList, texts, Json.loads_strings]
  unfold loadsTags orElse
  rw [if_neg some, read]
  dsimp only
  rw [List.map_map, List.filterMap_map]
  refine (List.filterMap_congr fun tag _ => ?_).trans List.filterMap_some
  exact congrArg Option.some String.ofList_toList

theorem skills_writeVec (level : ToolStore.VecLevel) (rowId : Nat) (skillId : String)
    (embedding : V) (s : SkillState V) :
    (writeVec level rowId skillId embedding s).1.skills = s.skills := by
  unfold writeVec
  split
  · split <;> rfl
  · rfl

theorem skills_embedSkill (env : SkillEnv V) (row : SkillRow) (rowId : Nat) (s : SkillState V) :
    (embedSkill env row rowId s).skills = s.skills := by
  unfold embedSkill
  split
  · rfl
  · split
    · rfl
    · dsimp only
      split
      · split
        · exact skills_writeVec ..
        · rw [skills_writeVec, skills_writeVec]
      · exact skills_writeVec ..

theorem skills_step (s : SkillState V) (call : SkillEnv V × SkillEntry) :
    (step s call).skills = upsertRow (newRow call.1.now call.2) s.skills := by
  unfold step upsertSkill
  dsimp only
  split
  · rfl
  · exact skills_embedSkill ..

/-- A row after a call has the identifier and the tags of the call, or it was there before with
another identifier. -/
theorem mem_upsertRow {row written : SkillRow} {skills : RowTable SkillRow}
    (member : row ∈ (upsertRow written skills).rows) :
    row.skillId = written.skillId ∧ row.tags = written.tags ∨
      row ∈ skills.rows ∧ row.skillId ≠ written.skillId := by
  unfold upsertRow at member
  split at member
  · rename_i inserted done
    rw [RowTable.insert?_rows done, List.mem_append, List.mem_singleton] at member
    rcases member with before | rfl
    · exact .inr ⟨before, RowTable.insert?_fresh done row before⟩
    · exact .inl ⟨rfl, rfl⟩
  · rw [RowTable.update_rows] at member
    obtain ⟨old, before, rfl⟩ := List.mem_map.mp member
    unfold overwrite
    split
    · rename_i same
      exact .inl ⟨same, rfl⟩
    · rename_i other
      exact .inr ⟨before, other⟩

/-- `skill_id` of a call. -/
def calledId (call : SkillEnv V × SkillEntry) : String :=
  call.2.skillName ++ "@" ++ call.2.version

/-- After any calls, a skill has the tags of the last call with its identifier. -/
theorem tags_run (vecExtension : Option (ToolStore.VecExtension V))
    (calls : List (SkillEnv V × SkillEntry)) {row : SkillRow}
    (member : row ∈ (run step (.empty vecExtension) calls).skills.rows) :
    ∃ call, (calls.filter fun call => calledId call = row.skillId).getLast? = some call ∧
      row.tags = dumpsTags call.2.tags := by
  induction calls using List.reverseRecOn with
  | nil => exact absurd member List.not_mem_nil
  | append_singleton calls call ih =>
      unfold run at member ih
      rw [List.foldl_append, List.foldl_cons, List.foldl_nil, skills_step] at member
      rw [List.filter_append]
      rcases mem_upsertRow member with ⟨same, tags⟩ | ⟨before, other⟩
      · have called : calledId call = row.skillId := same.symm
        have here : [call].filter (fun call => calledId call = row.skillId) = [call] := by
          simp [called]
        rw [here, List.getLast?_concat]
        exact ⟨call, rfl, tags⟩
      · have different : calledId call ≠ row.skillId := fun same => other same.symm
        have none : [call].filter (fun call => calledId call = row.skillId) = [] := by
          simp [different]
        rw [none, List.append_nil]
        exact ih before

/-! ## Plain tags -/

/-- No quotation mark, backslash, comma or bracket, no wildcard, no control character, and no
capital letter of ASCII. -/
def PlainTag (tag : String) : Prop :=
  ∀ c ∈ tag.toList, c ∉ ['"', '\\', ',', '[', ']', '%', '_'] ∧ 32 ≤ c.toNat ∧ c.toLower = c

namespace PlainTag

variable {tag : String}

theorem not_mem (plain : PlainTag tag) {c : Char}
    (special : c ∈ ['"', '\\', ',', '[', ']', '%', '_']) : c ∉ tag.toList :=
  fun member => (plain c member).1 special

theorem encodeChar_eq {c : Char} (other : c ∉ ['"', '\\', ',', '[', ']', '%', '_'])
    (printable : 32 ≤ c.toNat) : Json.encodeChar false c = [c] := by
  unfold Json.encodeChar
  split
  · exact absurd other (by decide)
  · exact absurd other (by decide)
  · exact absurd printable (by decide)
  · exact absurd printable (by decide)
  · exact absurd printable (by decide)
  · exact absurd printable (by decide)
  · exact absurd printable (by decide)
  · rw [if_neg (by omega), if_neg (fun ascii => Bool.false_ne_true ascii.1)]

theorem dumpsString_eq (plain : PlainTag tag) :
    Json.dumpsString false tag.toList = '"' :: (tag.toList ++ ['"']) := by
  have same : tag.toList.flatMap (Json.encodeChar false) = tag.toList :=
    (List.flatMap_congr fun c member => encodeChar_eq (plain c member).1 (plain c member).2.1).trans
      (List.flatMap_singleton' _)
  rw [Json.dumpsString, same]
  rfl

end PlainTag

/-- The text between the brackets. -/
def itemsText (tags : List String) : List Char :=
  Json.dumpsItems false id ((tags.map String.toList).map .str)

theorem toList_dumpsTags (tags : List String) :
    (dumpsTags tags).toList = '[' :: itemsText tags ++ [']'] := by
  unfold dumpsTags itemsText
  rw [String.toList_ofList, Json.dumps, List.map_map]
  rfl

theorem itemsText_singleton {tag : String} (plain : PlainTag tag) :
    itemsText [tag] = '"' :: (tag.toList ++ ['"']) := by
  unfold itemsText
  rw [List.map_singleton, List.map_singleton, Json.dumpsItems, Json.dumps, plain.dumpsString_eq]

theorem itemsText_cons {tag : String} (plain : PlainTag tag) (next : String)
    (tags : List String) : itemsText (tag :: next :: tags) =
      '"' :: (tag.toList ++ '"' :: ',' :: ' ' :: itemsText (next :: tags)) := by
  unfold itemsText
  simp only [List.map_cons]
  rw [Json.dumpsItems_cons, Json.dumps, plain.dumpsString_eq]
  simp

/-- What stands between quotation marks in the text is a tag or has a comma or a bracket. -/
theorem mem_splitOn_itemsText {tags : List String} (plain : ∀ tag ∈ tags, PlainTag tag)
    {start piece : List Char} (begins : '"' ∉ start) (marked : ∃ c ∈ start, c ∈ [',', '[', ']'])
    (member : piece ∈ (start ++ itemsText tags ++ [']']).splitOn '"') :
    piece ∈ tags.map String.toList ∨ ∃ c ∈ piece, c ∈ [',', '[', ']'] := by
  induction tags generalizing start with
  | nil =>
      have whole : '"' ∉ start ++ itemsText [] ++ [']'] := by
        simpa [itemsText, Json.dumpsItems] using begins
      rw [List.splitOn_eq_singleton whole, List.mem_singleton] at member
      exact .inr ⟨']', by simp [member], by decide⟩
  | cons tag tags ih =>
      have quote := (plain tag List.mem_cons_self).not_mem (c := '"') (by decide)
      cases tags with
      | nil =>
          have shape : start ++ itemsText [tag] ++ [']'] =
              start ++ '"' :: (tag.toList ++ '"' :: [']']) := by
            rw [itemsText_singleton (plain tag List.mem_cons_self)]
            simp
          rw [shape, List.splitOn_append_cons_self, List.splitOn_eq_singleton begins,
            List.splitOn_append_cons_self, List.splitOn_eq_singleton quote,
            List.splitOn_eq_singleton (by decide)] at member
          rcases List.mem_cons.mp member with rfl | member
          · exact .inr marked
          · rcases List.mem_cons.mp member with rfl | member
            · exact .inl (by simp)
            · exact .inr ⟨']', by simp [List.mem_singleton.mp member], by decide⟩
      | cons next tags =>
          have shape : start ++ itemsText (tag :: next :: tags) ++ [']'] =
              start ++ '"' :: (tag.toList ++ '"' ::
                ([',', ' '] ++ itemsText (next :: tags) ++ [']'])) := by
            rw [itemsText_cons (plain tag List.mem_cons_self)]
            simp
          rw [shape, List.splitOn_append_cons_self, List.splitOn_eq_singleton begins,
            List.splitOn_append_cons_self, List.splitOn_eq_singleton quote] at member
          rcases List.mem_cons.mp member with rfl | member
          · exact .inr marked
          · rcases List.mem_cons.mp member with rfl | member
            · exact .inl List.mem_cons_self
            · exact (ih (fun tag later => plain tag (List.mem_cons_of_mem _ later)) (by decide)
                ⟨',', by decide, by decide⟩ member).imp_left (List.mem_cons_of_mem _)

/-- Each tag stands in the text between its quotation marks. -/
theorem infix_itemsText {tag : String} {tags : List String}
    (plain : ∀ tag ∈ tags, PlainTag tag) (member : tag ∈ tags) :
    '"' :: (tag.toList ++ ['"']) <:+: itemsText tags := by
  induction tags with
  | nil => exact absurd member List.not_mem_nil
  | cons first tags ih =>
      have first_plain := plain first List.mem_cons_self
      cases tags with
      | nil =>
          rw [List.mem_singleton.mp member, itemsText_singleton first_plain]
      | cons next tags =>
          rw [itemsText_cons first_plain]
          rcases List.mem_cons.mp member with rfl | later
          · exact ⟨[], ',' :: ' ' :: itemsText (next :: tags), by simp⟩
          · have within := ih (fun tag later => plain tag (List.mem_cons_of_mem _ later)) later
            refine within.trans ⟨'"' :: (first.toList ++ ['"', ',', ' ']), [], by simp⟩

/-- Between quotation marks, a plain tag is looked for and nothing else is found. -/
theorem infix_dumpsTags_iff {tag : String} {tags : List String} (plain : PlainTag tag)
    (plains : ∀ tag ∈ tags, PlainTag tag) :
    '"' :: (tag.toList ++ ['"']) <:+: (dumpsTags tags).toList ↔ tag ∈ tags := by
  rw [toList_dumpsTags]
  constructor
  · rintro ⟨before, after, whole⟩
    have quote := plain.not_mem (c := '"') (by decide)
    have shape : before ++ '"' :: (tag.toList ++ ['"']) ++ after =
        before ++ '"' :: (tag.toList ++ '"' :: after) := by
      simp
    have piece : tag.toList ∈ (['['] ++ itemsText tags ++ [']']).splitOn '"' := by
      rw [List.singleton_append, ← whole, shape, List.splitOn_append_cons_self,
        List.splitOn_append_cons_self, List.splitOn_eq_singleton quote]
      simp
    rcases mem_splitOn_itemsText plains (by decide) ⟨'[', by decide, by decide⟩ piece with
      isTag | ⟨c, inside, marks⟩
    · obtain ⟨other, member, same⟩ := List.mem_map.mp isTag
      rwa [← String.toList_inj.mp same]
    · exact absurd inside (plain.not_mem (List.mem_of_mem_filter
        (p := fun c => c ∈ [',', '[', ']']) (l := ['"', '\\', ',', '[', ']', '%', '_'])
          (by simpa using marks)))
  · intro member
    exact (infix_itemsText plains member).trans ⟨['['], [']'], rfl⟩

/-- The text has quotation marks, commas, spaces and the characters of the tags. -/
theorem mem_itemsText {tags : List String} (plain : ∀ tag ∈ tags, PlainTag tag) {c : Char}
    (member : c ∈ itemsText tags) : c ∈ ['"', ',', ' '] ∨ ∃ tag ∈ tags, c ∈ tag.toList := by
  induction tags with
  | nil => exact absurd member List.not_mem_nil
  | cons tag tags ih =>
      have tagPlain := plain tag List.mem_cons_self
      cases tags with
      | nil =>
          rw [itemsText_singleton tagPlain] at member
          simp only [List.mem_cons, List.mem_append, List.not_mem_nil, or_false] at member
          rcases member with rfl | inside | rfl
          · exact .inl (by decide)
          · exact .inr ⟨tag, List.mem_cons_self, inside⟩
          · exact .inl (by decide)
      | cons next tags =>
          rw [itemsText_cons tagPlain] at member
          simp only [List.mem_cons, List.mem_append] at member
          rcases member with rfl | inside | rfl | rfl | rfl | later
          · exact .inl (by decide)
          · exact .inr ⟨tag, List.mem_cons_self, inside⟩
          · exact .inl (by decide)
          · exact .inl (by decide)
          · exact .inl (by decide)
          · rcases ih (fun tag later => plain tag (List.mem_cons_of_mem _ later)) later with
              special | ⟨other, isLater, inside⟩
            · exact .inl special
            · exact .inr ⟨other, List.mem_cons_of_mem _ isLater, inside⟩

/-- No character of the text ends it or has another case. -/
theorem even_of_mem_itemsText {tags : List String} (plain : ∀ tag ∈ tags, PlainTag tag) {c : Char}
    (member : c ∈ itemsText tags) : c ≠ '\x00' ∧ c.toLower = c := by
  have special : ∀ c ∈ ['"', ',', ' '], c ≠ '\x00' ∧ c.toLower = c := by
    simp only [List.forall_mem_cons, List.not_mem_nil, false_implies, implies_true, and_true]
    decide
  rcases mem_itemsText plain member with mark | ⟨tag, isTag, inside⟩
  · exact special c mark
  · obtain ⟨-, printable, lower⟩ := plain tag isTag c inside
    refine ⟨?_, lower⟩
    rintro rfl
    exact absurd printable (by decide)

theorem like_eq_likeMatch {text pattern : List Char} (textEnds : '\x00' ∉ text)
    (patternEnds : '\x00' ∉ pattern) : like text pattern = likeMatch pattern text := by
  have whole {list : List Char} (ends : '\x00' ∉ list) : cString list = list :=
    List.takeWhile_eq_self_iff.mpr fun c member =>
      decide_eq_true fun same => ends (same ▸ member)
  rw [like, whole textEnds, whole patternEnds]

/-- For plain tags the `LIKE` is equality with one of them. -/
theorem likeAround_dumpsTags_iff {tag : String} {tags : List String} (plain : PlainTag tag)
    (plains : ∀ tag ∈ tags, PlainTag tag) :
    likeAround (dumpsTags tags).toList ('"' :: tag.toList ++ ['"']) = true ↔ tag ∈ tags := by
  have even : ∀ c ∈ (dumpsTags tags).toList, c ≠ '\x00' ∧ c.toLower = c := by
    intro c member
    rw [toList_dumpsTags] at member
    simp only [List.cons_append, List.mem_cons, List.mem_append, List.not_mem_nil, or_false]
      at member
    rcases member with rfl | inside | rfl
    · decide
    · exact even_of_mem_itemsText plains inside
    · decide
  have single : ∀ c ∈ '"' :: (tag.toList ++ ['"']), c ≠ '\x00' ∧ c.toLower = c := by
    intro c member
    rw [← itemsText_singleton plain] at member
    exact even_of_mem_itemsText (fun other one => List.mem_singleton.mp one ▸ plain) member
  have lower {list : List Char} (same : ∀ c ∈ list, c ≠ '\x00' ∧ c.toLower = c) :
      list.map Char.toLower = list :=
    (List.map_congr_left fun c member => (same c member).2).trans (List.map_id _)
  have textEnds : '\x00' ∉ (dumpsTags tags).toList := fun ends => (even _ ends).1 rfl
  have wordEnds : '\x00' ∉ '"' :: (tag.toList ++ ['"']) := fun ends => (single _ ends).1 rfl
  have wild : '%' ∉ '"' :: (tag.toList ++ ['"']) ∧ '_' ∉ '"' :: (tag.toList ++ ['"']) := by
    have percent := plain.not_mem (c := '%') (by decide)
    have underscore := plain.not_mem (c := '_') (by decide)
    simp [percent, underscore]
  have word : '"' :: tag.toList ++ ['"'] = '"' :: (tag.toList ++ ['"']) := rfl
  rw [← infix_dumpsTags_iff plain plains, word]
  unfold likeAround
  rw [like_eq_likeMatch textEnds (by simpa using wordEnds), likeMatch_around_iff wild, lower even,
    lower single]

end YouMi.Mcp.SkillStore
