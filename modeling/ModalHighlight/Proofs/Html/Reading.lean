import ModalHighlight.Html

/-! # Reading rendered text back

Rendered text is a sequence of marks: tags, and characters of the document.
The reader here takes it apart again.  It knows the tags that are written and
the five characters that are written as entities, takes any other character for
itself, and gives up on anything else.  No mark begins with the whole of
another one, so a text is read as the marks that it was written from and as no
others.
-/

namespace ModalHighlight.Html

/-! ## Marks -/

/-- What a reader meets in rendered text. -/
inductive Mark where
  | openTag (kind : Kind)
  | closeTag
  | char (c : Char)
  deriving DecidableEq, Repr

/-- The marks that a part is written as. -/
def Part.marks : Part → List Mark
  | openTag kind => [.openTag kind]
  | closeTag => [.closeTag]
  | text content => content.toList.map .char

def marksOf (parts : List Part) : List Mark := parts.flatMap Part.marks

/-- The characters that are written as entities, and how. -/
def entities : List (Char × String) :=
  [('&', "&amp;"), ('<', "&lt;"), ('>', "&gt;"), ('"', "&quot;"), ('\'', "&#x27;")]

/-- The characters that are not written as themselves. -/
def reserved : List Char := entities.map Prod.fst

namespace Mark

/-- A mark as it is written. -/
def text : Mark → String
  | openTag kind => "<span class=\"hljs-" ++ kind.className ++ "\">"
  | closeTag => "</span>"
  | char c => (entities.lookup c).getD (String.singleton c)

theorem text_char (c : Char) :
    (char c).text = (entities.lookup c).getD (String.singleton c) := rfl

def write (mark : Mark) : List Char := mark.text.toList

/-- The character of the document that a mark is. -/
def char? : Mark → Option Char
  | char c => some c
  | _ => none

end Mark

/-- The characters of the document in what is marked. -/
def charsOf (marks : List Mark) : List Char := marks.filterMap Mark.char?

theorem write_of_not_mem {c : Char} (ordinary : c ∉ reserved) : (Mark.char c).write = [c] := by
  have absent : entities.lookup c = none := by
    refine List.lookup_eq_none_iff.2 fun named member => bne_iff_ne.2 ?_
    rintro rfl
    exact ordinary (List.mem_map_of_mem member)
  have single : (Mark.char c).text = String.singleton c := by
    rw [Mark.text_char, absent]
    rfl
  rw [Mark.write, single]
  exact String.toList_singleton c

theorem entity_of_not_mem {c : Char} (ordinary : c ∉ reserved) : entity c = [c] := by
  unfold entity
  split <;> first | rfl | simp [reserved, entities] at ordinary

/-- What holds of each of the reserved characters. -/
theorem forall_mem_reserved {p : Char → Prop} (ampersand : p '&') (less : p '<')
    (greater : p '>') (quote : p '"') (apostrophe : p '\'') : ∀ c ∈ reserved, p c := by
  intro c isReserved
  simp only [reserved, entities, List.map_cons, List.map_nil, List.mem_cons, List.not_mem_nil,
    or_false] at isReserved
  rcases isReserved with rfl | rfl | rfl | rfl | rfl
  · exact ampersand
  · exact less
  · exact greater
  · exact quote
  · exact apostrophe

theorem entity_eq_write (c : Char) : entity c = (Mark.char c).write := by
  by_cases isReserved : c ∈ reserved
  · have named : ∀ c ∈ reserved, entity c = (Mark.char c).write := by
      refine forall_mem_reserved ?_ ?_ ?_ ?_ ?_ <;> decide
    exact named c isReserved
  · exact (entity_of_not_mem isReserved).trans (write_of_not_mem isReserved).symm

theorem toList_write_part (part : Part) : part.write.toList = part.marks.flatMap Mark.write := by
  cases part with
  | openTag kind => exact (List.flatMap_singleton Mark.write (.openTag kind)).symm
  | closeTag => exact (List.flatMap_singleton Mark.write .closeTag).symm
  | text content =>
    rw [Part.marks, List.flatMap_map, ← funext entity_eq_write]
    exact String.toList_ofList

theorem toList_join_write (parts : List Part) :
    (String.join (parts.map Part.write)).toList = (marksOf parts).flatMap Mark.write := by
  simp only [String.toList_join, List.flatMap_map, marksOf, List.flatMap_assoc, toList_write_part]

/-! ## The reader -/

/-- The marks that are not one ordinary character. -/
def markup : List Mark := .closeTag :: Kind.all.map .openTag ++ reserved.map .char

/-- The mark at the start of a text. -/
def firstMark? : List Char → Option Mark
  | [] => none
  | c :: rest =>
    if c ∈ reserved then markup.find? fun mark => mark.write.isPrefixOf (c :: rest)
    else some (.char c)

/-- The marks of a text behind the characters of a mark that is read already. -/
def readFrom? : (skip : Nat) → List Char → Option (List Mark)
  | _, [] => some []
  | skip + 1, _ :: rest => readFrom? skip rest
  | 0, c :: rest =>
    match firstMark? (c :: rest) with
    | none => none
    | some mark => (readFrom? (mark.write.length - 1) rest).map (mark :: ·)

/-- The marks of a text; none if it is not made up of marks. -/
def read? (text : List Char) : Option (List Mark) := readFrom? 0 text

/-! ## First marks -/

/-- No mark is written as the start of another one. -/
theorem eq_of_write_isPrefix : ∀ first ∈ markup, ∀ second ∈ markup,
    first.write <+: second.write → first = second := by
  decide

theorem head?_write_of_mem_markup : ∀ mark ∈ markup,
    mark.write.head?.any reserved.contains = true := by
  decide

theorem exists_write_of_mem_markup {mark : Mark} (inMarkup : mark ∈ markup) :
    ∃ c more, c ∈ reserved ∧ mark.write = c :: more := by
  have head := head?_write_of_mem_markup mark inMarkup
  cases written : mark.write with
  | nil => simp [written] at head
  | cons c more =>
    rw [written] at head
    exact ⟨c, more, List.contains_iff_mem.1 head, rfl⟩

/-- A mark belongs to the markup or is one ordinary character. -/
theorem mem_markup_or (mark : Mark) :
    mark ∈ markup ∨ ∃ c, c ∉ reserved ∧ mark = .char c := by
  cases mark with
  | openTag kind => exact .inl (by simp [markup, Kind.mem_all])
  | closeTag => exact .inl (by simp [markup])
  | char c =>
    by_cases ordinary : c ∈ reserved
    · exact .inl (by simp [markup, ordinary])
    · exact .inr ⟨c, ordinary, rfl⟩

theorem firstMark?_write (mark : Mark) (rest : List Char) :
    firstMark? (mark.write ++ rest) = some mark := by
  rcases mem_markup_or mark with inMarkup | ⟨c, ordinary, rfl⟩
  · obtain ⟨c, more, isReserved, written⟩ := exists_write_of_mem_markup inMarkup
    have whole : mark.write ++ rest = c :: (more ++ rest) := by rw [written]; rfl
    rw [whole, firstMark?, if_pos isReserved, ← whole]
    cases found : markup.find? fun other => other.write.isPrefixOf (mark.write ++ rest) with
    | none =>
      have never := List.find?_eq_none.1 found mark inMarkup
      exact absurd (List.isPrefixOf_iff_prefix.2 (List.prefix_append _ _)) never
    | some other =>
      have accepted := List.find?_some found
      have inFront := List.isPrefixOf_iff_prefix.1 accepted
      have member := List.mem_of_find?_eq_some found
      -- Both are written in front of the text, so one of them is the start of the other.
      rcases List.prefix_or_prefix_of_prefix inFront (List.prefix_append _ rest) with short | long
      · rw [eq_of_write_isPrefix other member mark inMarkup short]
      · rw [eq_of_write_isPrefix mark inMarkup other member long]
  · rw [write_of_not_mem ordinary, List.singleton_append, firstMark?, if_neg ordinary]

theorem write_isPrefix_of_firstMark? {text : List Char} {mark : Mark}
    (first : firstMark? text = some mark) : mark.write <+: text := by
  cases text with
  | nil => cases first
  | cons c rest =>
    simp only [firstMark?] at first
    split at first
    next =>
      have accepted := List.find?_some first
      exact List.isPrefixOf_iff_prefix.1 accepted
    next ordinary =>
      obtain rfl : Mark.char c = mark := Option.some.inj first
      rw [write_of_not_mem ordinary]
      exact List.prefix_append [c] rest

theorem write_ne_nil (mark : Mark) : mark.write ≠ [] := by
  rcases mem_markup_or mark with inMarkup | ⟨c, ordinary, rfl⟩
  · obtain ⟨c, more, _, written⟩ := exists_write_of_mem_markup inMarkup
    rw [written]
    exact List.cons_ne_nil c more
  · rw [write_of_not_mem ordinary]
    exact List.cons_ne_nil c []

/-! ## Reading what is written -/

theorem readFrom?_append (front rest : List Char) :
    readFrom? front.length (front ++ rest) = readFrom? 0 rest := by
  induction front with
  | nil => rfl
  | cons c front ih => exact ih

theorem read?_write (marks : List Mark) : read? (marks.flatMap Mark.write) = some marks := by
  induction marks with
  | nil => rfl
  | cons mark marks ih =>
    -- The reader finds the mark and then skips what it is written as.
    obtain ⟨c, more, written⟩ := List.exists_cons_of_ne_nil (write_ne_nil mark)
    have first := firstMark?_write mark (marks.flatMap Mark.write)
    rw [written, List.cons_append] at first
    rw [List.flatMap_cons, written, List.cons_append, read?, readFrom?, first]
    simp only [written, List.length_cons, Nat.add_sub_cancel, readFrom?_append]
    rw [show readFrom? 0 (marks.flatMap Mark.write) = some marks from ih]
    rfl

/-- What is read is what the marks are written as. -/
theorem drop_eq_of_readFrom? {skip : Nat} {text : List Char} {marks : List Mark}
    (reads : readFrom? skip text = some marks) : text.drop skip = marks.flatMap Mark.write := by
  induction text generalizing skip marks with
  | nil =>
    obtain rfl : [] = marks := by cases skip <;> exact Option.some.inj reads
    simp
  | cons c rest ih =>
    cases skip with
    | succ skip => exact ih reads
    | zero =>
      simp only [readFrom?] at reads
      cases first : firstMark? (c :: rest) with
      | none => simp [first] at reads
      | some mark =>
        simp only [first, Option.map_eq_some_iff] at reads
        obtain ⟨later, readsLater, rfl⟩ := reads
        obtain ⟨behind, split⟩ := write_isPrefix_of_firstMark? first
        obtain ⟨lead, more, written⟩ := List.exists_cons_of_ne_nil (write_ne_nil mark)
        rw [List.drop_zero, List.flatMap_cons, ← ih readsLater, ← split]
        rw [written, List.cons_append] at split ⊢
        rw [← (List.cons.inj split).2, List.length_cons, Nat.add_sub_cancel, List.drop_left]
        rfl

/-- A text is read as some marks exactly if it is what they are written as. -/
theorem read?_eq_some_iff {text : List Char} {marks : List Mark} :
    read? text = some marks ↔ text = marks.flatMap Mark.write := by
  constructor
  · exact drop_eq_of_readFrom?
  · rintro rfl
    exact read?_write marks

/-! ## Text outside tags -/

/-- What is written outside tags. -/
def outsideTags (marks : List Mark) : List Char :=
  (marks.filter (·.char?.isSome)).flatMap Mark.write

theorem exists_of_mem_outside {marks : List Mark} {mark : Mark}
    (member : mark ∈ marks.filter (·.char?.isSome)) : ∃ c, mark = .char c := by
  have outside := (List.mem_filter.1 member).2
  cases mark with
  | char c => exact ⟨c, rfl⟩
  | openTag => cases outside
  | closeTag => cases outside

/-- Nothing outside tags begins or ends a tag or an attribute. -/
theorem not_mem_outsideTags (marks : List Mark) :
    ∀ raw ∈ ['<', '>', '"', '\''], raw ∉ outsideTags marks := by
  intro raw isRaw member
  obtain ⟨mark, outside, written⟩ := List.mem_flatMap.1 member
  obtain ⟨c, rfl⟩ := exists_of_mem_outside outside
  by_cases isReserved : c ∈ reserved
  · have never : ∀ c ∈ reserved,
        (Mark.char c).write.any ['<', '>', '"', '\''].contains = false := by
      refine forall_mem_reserved ?_ ?_ ?_ ?_ ?_ <;> decide
    have found := List.any_eq_true.2 ⟨raw, written, List.contains_iff_mem.2 isRaw⟩
    rw [never c isReserved] at found
    cases found
  · rw [write_of_not_mem isReserved, List.mem_singleton] at written
    subst written
    exact isReserved (List.mem_cons_of_mem '&' isRaw)

theorem write_char_eq_or (c : Char) :
    ((Mark.char c).text ∈ entities.map Prod.snd ∧ '&' ∉ (Mark.char c).write.tail) ∨
      (c ≠ '&' ∧ (Mark.char c).write = [c]) := by
  by_cases isReserved : c ∈ reserved
  · have named : ∀ c ∈ reserved,
        (Mark.char c).text ∈ entities.map Prod.snd ∧ '&' ∉ (Mark.char c).write.tail := by
      refine forall_mem_reserved ?_ ?_ ?_ ?_ ?_ <;> decide
    exact .inl (named c isReserved)
  · refine .inr ⟨?_, write_of_not_mem isReserved⟩
    rintro rfl
    exact isReserved List.mem_cons_self

theorem entity_of_ampersand {chars before after : List Char}
    (written : (chars.map Mark.char).flatMap Mark.write = before ++ '&' :: after) :
    ∃ name ∈ entities.map Prod.snd, name.toList <+: '&' :: after := by
  induction chars generalizing before with
  | nil => exact absurd written.symm (by simp)
  | cons c chars ih =>
    rw [List.map_cons, List.flatMap_cons] at written
    -- The ampersand is written by this character or by a later one.
    rcases List.append_eq_append_iff.1 written with ⟨between, _, rest⟩ | ⟨between, front, rest⟩
    · exact ih rest
    · cases between with
      | nil => exact @ih [] rest.symm
      | cons lead more =>
        obtain ⟨rfl, rfl⟩ := List.cons.inj rest
        rcases write_char_eq_or c with ⟨isEntity, once⟩ | ⟨other, single⟩
        -- An entity holds one ampersand, its first character.
        · cases before with
          | nil =>
            refine ⟨(Mark.char c).text, isEntity, ?_⟩
            rw [show (Mark.char c).text.toList = '&' :: more from front]
            exact List.prefix_append ('&' :: more) _
          | cons first before =>
            rw [front, List.cons_append, List.tail_cons] at once
            exact absurd (List.mem_append_right before List.mem_cons_self) once
        · rw [single] at front
          cases before with
          | nil => exact absurd (List.cons.inj front).1 other
          | cons first before => exact absurd (List.cons.inj front).2 (by simp)

theorem filter_eq_map_char (marks : List Mark) :
    marks.filter (·.char?.isSome) = (charsOf marks).map .char := by
  induction marks with
  | nil => rfl
  | cons mark marks ih =>
    cases mark with
    | char c => exact congrArg (.char c :: ·) ih
    | openTag => exact ih
    | closeTag => exact ih

/-- Every ampersand outside tags begins an entity. -/
theorem entity_of_mem_outsideTags {marks : List Mark} {before after : List Char}
    (written : outsideTags marks = before ++ '&' :: after) :
    ∃ name ∈ entities.map Prod.snd, name.toList <+: '&' :: after := by
  rw [outsideTags, filter_eq_map_char] at written
  exact entity_of_ampersand written

end ModalHighlight.Html
