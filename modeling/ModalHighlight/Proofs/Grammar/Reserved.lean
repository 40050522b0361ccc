import ModalHighlight.Proofs.Grammar.Spelling
import ModalHighlight.Proofs.Search

/-! # How words are classified

The lists of a keyword table ascend, so the search in them finds every entry, and a
table classifies a word by the first of its lists that has it.  What a word of Flint is
outside all modes follows from the lists and from what stands behind the word: the head
of a path is looked up in one list only, and a name that is called must be in none.
-/

namespace ModalHighlight

variable {word behind rest : List UInt8}

/-! ## Keyword tables -/

namespace KeywordTable

variable {list : Array String} {table : KeywordTable}

theorem ordered_of_ascending (ascending : Ascending list) (word : List UInt8) :
    Search.Ordered (fun entry => compare (Text.bytes entry) word) list := by
  refine ascending.imp fun {left right} before notBelow => ?_
  have atLeast : (compare (Text.bytes left) word).isGE = true := by
    cases side : compare (Text.bytes left) word with
    | lt => exact absurd side notBelow
    | eq => rfl
    | gt => rfl
  exact Std.TransCmp.gt_of_gt_of_isGE (Std.OrientedCmp.gt_of_lt before) atLeast

theorem listed_iff (ascending : Ascending list) : listed list word = true ↔ Lists list word := by
  rw [listed, (ordered_of_ascending ascending word).isSome_find?_iff]
  simp only [Std.LawfulEqCmp.compare_eq_iff_eq]
  exact Iff.rfl

/-- A word is classified by the first list that has it. -/
theorem classify_eq (sorted : table.Sorted) (word : List UInt8) : table.classify word =
    if Lists table.keyword word then some .keyword
    else if Lists table.literal word then some .literal
    else if Lists table.builtIn word then some .builtIn
    else none := by
  obtain ⟨keyword, literal, builtIn⟩ := sorted
  simp only [classify, listed_iff keyword, listed_iff literal, listed_iff builtIn]

/-- A word is reserved if any of the lists has it. -/
theorem reserves_iff_lists (sorted : table.Sorted) (word : List UInt8) :
    table.reserves word = true ↔
      Lists table.keyword word ∨ Lists table.literal word ∨ Lists table.builtIn word := by
  rw [reserves, classify_eq sorted]
  -- The first list that has the word answers, and those behind it may have it too.
  by_cases keyword : Lists table.keyword word
  · simp [keyword]
  · by_cases literal : Lists table.literal word
    · simp [keyword, literal]
    · by_cases builtIn : Lists table.builtIn word <;> simp [keyword, literal, builtIn]

end KeywordTable

open KeywordTable (Lists)

namespace Flint

/-! ## Words outside all modes -/

/-- A word is in one of the lists of reserved words. -/
def Reserved (word : List UInt8) : Prop :=
  Lists keywords.keyword word ∨ Lists keywords.literal word ∨ Lists keywords.builtIn word

instance (word : List UInt8) : Decidable (Reserved word) :=
  inferInstanceAs (Decidable (_ ∨ _ ∨ _))

/-- A text goes on with blanks and `(`. -/
def Calls (behind : List UInt8) : Prop :=
  (behind.dropWhile Byte.isBlank).head? = some Byte.parenthesis

instance (behind : List UInt8) : Decidable (Calls behind) :=
  inferInstanceAs (Decidable (_ = _))

/-- The kind of a word outside all modes, in front of a text. -/
def wordKind (word behind : List UInt8) : Kind :=
  if Text.bytes "::" <+: behind then
    if Lists keywords.builtIn word then .builtIn else .plain
  else if ¬Reserved word ∧ Calls behind then .function
  else if Lists keywords.keyword word then .keyword
  else if Lists keywords.literal word then .literal
  else if Lists keywords.builtIn word then .builtIn
  else .plain

theorem reserves_iff : keywords.reserves word = true ↔ Reserved word :=
  KeywordTable.reserves_iff_lists keywords_sorted word

theorem wordKind_of_colons (colons : Text.bytes "::" <+: behind) :
    wordKind word behind = (builtInsOnly.classify word).getD .plain := by
  have notKeyword : ¬Lists builtInsOnly.keyword word := KeywordTable.not_lists_empty word
  have notLiteral : ¬Lists builtInsOnly.literal word := KeywordTable.not_lists_empty word
  rw [wordKind, if_pos colons, KeywordTable.classify_eq builtInsOnly_sorted, if_neg notKeyword,
    if_neg notLiteral, show builtInsOnly.builtIn = keywords.builtIn from rfl]
  split <;> rfl

/-- Neither `:` is blank, so no call is the head of a path. -/
theorem not_colons_of_calls (calls : Calls behind) : ¬Text.bytes "::" <+: behind := by
  rintro ⟨later, rfl⟩
  cases calls

theorem wordKind_of_calls (free : ¬Reserved word) (calls : Calls behind) :
    wordKind word behind = .function := by
  rw [wordKind, if_neg (not_colons_of_calls calls), if_pos ⟨free, calls⟩]

theorem wordKind_of_content (noColons : ¬Text.bytes "::" <+: behind)
    (uncalled : ¬(¬Reserved word ∧ Calls behind)) :
    wordKind word behind = (keywords.classify word).getD .plain := by
  rw [wordKind, if_neg noColons, if_neg uncalled, KeywordTable.classify_eq keywords_sorted]
  split
  next => rfl
  next =>
    split
    next => rfl
    next => split <;> rfl

end Flint

/-! ## Lexemes that begin with a small letter -/

namespace Lexeme

theorem identifier_of_small (small : ∃ b ∈ rest.head?, Byte.isLower b = true) :
    identifier rest = some (wordLength rest) := by
  obtain ⟨b, first, lower⟩ := small
  obtain ⟨more, rfl⟩ := List.head?_eq_some_iff.1 first
  have isStart : Byte.isIdentifierStart b = true := by simp [Byte.isIdentifierStart, lower]
  exact if_pos isStart

theorem qualifiedPath_of_small (small : ∃ b ∈ rest.head?, Byte.isLower b = true) :
    qualifiedPath rest = if Text.bytes "::" <+: rest.drop (wordLength rest) then
      some (wordLength rest, wordLength rest + 2) else none := by
  rw [qualifiedPath, identifier_of_small small]
  simp only [List.isPrefixOf_iff_prefix]

theorem call_of_small (small : ∃ b ∈ rest.head?, Byte.isLower b = true) :
    call rest = if Flint.Calls (rest.drop (wordLength rest)) then some (wordLength rest) else none := by
  obtain ⟨b, first, lower⟩ := small
  obtain ⟨more, rfl⟩ := List.head?_eq_some_iff.1 first
  rw [call, wordFrom, if_pos (by simp [lower]), Option.filter_some]
  simp only [beq_iff_eq]
  rfl

end Lexeme

end ModalHighlight
