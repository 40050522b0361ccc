import ModalHighlight.Proofs.Lexeme.Lookahead

/-! # Lexemes end in their line

A lexeme does not hold a line feed, unless it takes one as a character of its
own, as escapes do and characters that are astray.  For lexemes that are made of
few bytes, it holds of every byte that is foreign to them.
-/

namespace ModalHighlight.Lexeme

open Text (Whole Cut)

variable {text : List UInt8} {b lead : UInt8} {more : List UInt8} {length : Nat}

theorem not_mem_take_wordFrom {starts : UInt8 → Bool} (outside : Byte.isIdentifier b = false)
    (found : wordFrom starts text = some length) : b ∉ text.take length := by
  rw [wordFrom_eq_some found]
  exact Byte.not_mem_take_runLength Byte.isIdentifier outside text

theorem not_mem_take_literal {expected : List UInt8} (absent : b ∉ expected)
    (found : literal expected text = some length) : b ∉ text.take length := by
  simp only [literal, Option.ite_none_right_eq_some, List.isPrefixOf_iff_prefix,
    Option.some.injEq] at found
  obtain ⟨⟨rest, rfl⟩, rfl⟩ := found
  rwa [List.take_left]

theorem not_mem_take_oneOf {set : List UInt8} (absent : Byte.newline ∉ set)
    (found : oneOf set text = some length) : Byte.newline ∉ text.take length := by
  cases text with
  | nil => cases found
  | cons lead more =>
    simp only [oneOf, Option.ite_none_right_eq_some, List.contains_iff_mem,
      Option.some.injEq] at found
    obtain ⟨member, rfl⟩ := found
    refine Byte.not_mem_take_cons ?_ List.not_mem_nil
    rintro rfl
    exact absent member

theorem not_mem_take_lineComment (found : lineComment text = some length) :
    Byte.newline ∉ text.take length := by
  cases slashes : literal (Text.bytes "//") text with
  | none => simp [lineComment, slashes] at found
  | some two =>
    simp only [lineComment, slashes, Option.some.injEq] at found
    have opening : Byte.newline ∉ text.take two := not_mem_take_literal (by decide) slashes
    rw [← found]
    exact Byte.not_mem_take_add opening
      (Byte.not_mem_take_runLength (· != Byte.newline) (by decide) _)

theorem not_mem_take_rawClose {hashes : Nat} (found : rawClose hashes text = some length) :
    Byte.newline ∉ text.take length := by
  cases text with
  | nil => cases found
  | cons lead more =>
    simp only [rawClose, Option.ite_none_right_eq_some, Bool.and_eq_true, beq_iff_eq,
      Option.some.injEq] at found
    obtain ⟨⟨rfl, rfl⟩, rfl⟩ := found
    exact Byte.not_mem_take_cons (by decide)
      (Byte.not_mem_take_runLength (· == Byte.hash) (by decide) more)

theorem not_mem_take_quoteOpen (found : quoteOpen text = some length) :
    Byte.newline ∉ text.take length := by
  match text with
  | [] => cases found
  | [only] =>
    simp only [quoteOpen, List.head?_nil, beq_iff_eq] at found
    split at found
    next quote => exact Option.some.inj found ▸ Byte.not_mem_take_cons (quote ▸ by decide) (by simp)
    next => simp at found
  | lead :: next :: more =>
    simp only [quoteOpen, List.head?_cons, Bool.and_eq_true, beq_iff_eq, Option.some.injEq] at found
    split at found
    next quote => exact Option.some.inj found ▸ Byte.not_mem_take_cons (quote ▸ by decide) (by simp)
    next =>
      obtain ⟨⟨rfl, rfl⟩, two⟩ := Option.ite_none_right_eq_some.1 found
      exact Option.some.inj two ▸ Byte.not_mem_take_cons (by decide)
        (Byte.not_mem_take_cons (by decide) List.not_mem_nil)

theorem not_mem_take_rawOpen {hashes : Nat} (found : rawOpen text = some (length, hashes)) :
    Byte.newline ∉ text.take length := by
  cases text with
  | nil => cases found
  | cons lead more =>
    simp only [rawOpen, beq_iff_eq, Option.ite_none_right_eq_some, Bool.and_eq_true,
      Option.some.injEq, Prod.mk.injEq] at found
    obtain ⟨rfl, ⟨quote, _⟩, rfl, rfl⟩ := found
    refine Byte.not_mem_take_cons (by decide) ?_
    rw [List.take_add_one, quote, Option.toList_some, List.mem_append, not_or]
    exact ⟨Byte.not_mem_take_runLength (· == Byte.hash) (by decide) more, by decide⟩

theorem not_mem_take_closedAfter {count : Nat} (absent : Byte.newline ∉ text.take count)
    (found : closedAfter count text = some length) : Byte.newline ∉ text.take length := by
  simp only [closedAfter, beq_iff_eq, Option.ite_none_right_eq_some, Option.some.injEq] at found
  obtain ⟨quote, rfl⟩ := found
  rw [List.take_add_one, quote, Option.toList_some, List.mem_append, not_or]
  exact ⟨absent, by decide⟩

theorem not_mem_take_countedEscape {letter : UInt8} {count : Nat} (other : letter ≠ Byte.newline)
    (found : countedEscape letter count text = some length) : Byte.newline ∉ text.take length := by
  cases text with
  | nil => cases found
  | cons lead more =>
    simp only [countedEscape, Bool.and_eq_true, beq_iff_eq, Option.ite_none_right_eq_some,
      List.all_eq_true] at found
    obtain ⟨⟨⟨rfl, _⟩, all⟩, closed⟩ := found
    rw [Nat.add_comm] at closed
    refine not_mem_take_closedAfter (Byte.not_mem_take_cons other ?_) closed
    intro within
    exact absurd (all _ within) (by decide)

theorem not_mem_take_closedChar (whole : Whole text) (found : closedChar text = some length) :
    Byte.newline ∉ text.take length := by
  cases text with
  | nil => cases found
  | cons lead more =>
    simp only [closedChar, Option.ite_none_left_eq_some, beq_iff_eq] at found
    exact not_mem_take_closedAfter (not_mem_take_charLength whole (by decide) found.1) found.2

theorem not_mem_take_charBody (whole : Whole text) (found : charBody text = some length) :
    Byte.newline ∉ text.take length := by
  simp only [charBody, Option.or_eq_some_iff] at found
  rcases found with two | ⟨_, four | ⟨_, eight | ⟨_, char⟩⟩⟩
  · exact not_mem_take_countedEscape (by decide) two
  · exact not_mem_take_countedEscape (by decide) four
  · exact not_mem_take_countedEscape (by decide) eight
  · exact not_mem_take_closedChar whole char

/-- A byte in front of a lexeme that was found behind it. -/
theorem not_mem_take_of_map_succ {result : Option Nat} (other : lead ≠ b)
    (absent : ∀ inner, result = some inner → b ∉ more.take inner)
    (found : result.map (· + 1) = some length) : b ∉ (lead :: more).take length := by
  obtain ⟨inner, some, rfl⟩ := Option.map_eq_some_iff.1 found
  exact Byte.not_mem_take_cons other (absent inner some)

theorem not_mem_take_charContent (whole : Whole text) (found : charContent text = some length) :
    Byte.newline ∉ text.take length := by
  cases text with
  | nil => cases found
  | cons lead more =>
    simp only [charContent, beq_iff_eq] at found
    split at found
    next backslash =>
      rcases Option.or_eq_some_iff.1 found with escaped | ⟨_, plain⟩
      · have behind := whole_of_cons whole (backslash ▸ by decide)
        exact not_mem_take_of_map_succ (backslash ▸ by decide)
          (fun _ => not_mem_take_charBody behind) escaped
      · exact not_mem_take_charBody whole plain
    next => exact not_mem_take_charBody whole found

theorem not_mem_take_quotedChar (whole : Whole text) (found : quotedChar text = some length) :
    Byte.newline ∉ text.take length := by
  cases text with
  | nil => cases found
  | cons lead more =>
    simp only [quotedChar, beq_iff_eq, Option.ite_none_right_eq_some] at found
    obtain ⟨quote, content⟩ := found
    have behind := whole_of_cons whole (quote ▸ by decide)
    exact not_mem_take_of_map_succ (quote ▸ by decide)
      (fun _ => not_mem_take_charContent behind) content

theorem not_mem_take_charLiteral (whole : Whole text) (found : charLiteral text = some length) :
    Byte.newline ∉ text.take length := by
  cases text with
  | nil => cases found
  | cons lead more =>
    simp only [charLiteral, beq_iff_eq] at found
    split at found
    next letter =>
      have behind := whole_of_cons whole (letter ▸ by decide)
      exact not_mem_take_of_map_succ (letter ▸ by decide)
        (fun _ => not_mem_take_quotedChar behind) found
    next => exact not_mem_take_quotedChar whole found

theorem not_mem_take_qualifiedPath {head : Nat} (foreign : Byte.isForeign b = true)
    (found : qualifiedPath text = some (head, length)) : b ∉ text.take length := by
  obtain ⟨outside, _, _, _, _, notColon⟩ := Byte.of_isForeign foreign
  cases word : identifier text with
  | none => simp [qualifiedPath, word] at found
  | some inner =>
    simp only [qualifiedPath, word, Option.ite_none_right_eq_some, Option.some.injEq,
      Prod.mk.injEq, List.isPrefixOf_iff_prefix] at found
    obtain ⟨⟨rest, colons⟩, rfl, rfl⟩ := found
    refine Byte.not_mem_take_add (not_mem_take_wordFrom outside word) ?_
    rw [← colons, List.take_append_of_le_length (by decide)]
    exact Byte.not_mem_take_cons notColon.symm (Byte.not_mem_take_cons notColon.symm (by simp))

theorem not_mem_take_symbol (foreign : Byte.isForeign b = true)
    (found : symbol text = some length) : b ∉ text.take length := by
  obtain ⟨outside, notApostrophe, _⟩ := Byte.of_isForeign foreign
  cases text with
  | nil => cases found
  | cons lead more =>
    simp only [symbol, beq_iff_eq, Option.ite_none_right_eq_some] at found
    exact not_mem_take_of_map_succ (found.1 ▸ notApostrophe.symm)
      (fun _ => not_mem_take_wordFrom outside) found.2

theorem not_mem_take_operator (found : operator text = some length) :
    Byte.newline ∉ text.take length := by
  cases text with
  | nil => cases found
  | cons lead more =>
    have other : lead ≠ Byte.newline := by
      rintro rfl
      rw [operator_newline] at found
      cases found
    have one : Byte.newline ∉ (lead :: more).take 1 :=
      Byte.not_mem_take_cons other List.not_mem_nil
    have absent : ∀ operator ∈ longOperators, Byte.newline ∉ operator := by decide
    simp only [operator, List.contains_iff_mem] at found
    split at found
    next long => exact Option.some.inj found ▸ absent _ long
    next =>
      split at found
      next => exact Option.some.inj found ▸ one
      next =>
        rw [Option.ite_none_right_eq_some] at found
        exact Option.some.inj found.2 ▸ one

theorem not_mem_take_radixNumber (foreign : Byte.isForeign b = true)
    (found : radixNumber text = some length) : b ∉ text.take length := by
  match text with
  | [] | [_] => cases found
  | lead :: letter :: more =>
    simp only [radixNumber, beq_iff_eq, Option.ite_none_right_eq_some] at found
    obtain ⟨rfl, found⟩ := found
    cases announced : digitsAnnouncedBy letter with
    | none => simp [announced] at found
    | some inClass =>
      obtain ⟨other, outside⟩ := digitsAnnouncedBy_foreign foreign announced
      have digits := Byte.not_mem_take_runLength (isDigitOf inClass) outside more
      cases count : Byte.runLength (isDigitOf inClass) more with
      | zero => simp [announced, count] at found
      | succ others =>
        simp only [announced, count, Option.some.injEq] at found
        rw [count] at digits
        have zero : Byte.zero ≠ b := Byte.ne_of_isForeign foreign (by decide)
        exact found ▸ Byte.not_mem_take_cons zero (Byte.not_mem_take_cons other digits)

theorem not_mem_take_number (foreign : Byte.isForeign b = true)
    (found : number text = some length) : b ∉ text.take length := by
  cases text with
  | nil => cases found
  | cons lead more =>
    simp only [number, Option.ite_none_right_eq_some] at found
    cases radix : radixNumber (lead :: more) with
    | some inner =>
      simp only [radix, Option.some.injEq] at found
      exact found.2 ▸ not_mem_take_radixNumber foreign radix
    | none =>
      simp only [radix, Option.some.injEq] at found
      exact found.2 ▸ not_mem_take_decimalLength foreign _

end ModalHighlight.Lexeme
