import ModalHighlight.Lexeme.Fixed
import ModalHighlight.Lexeme.Number
import ModalHighlight.Lexeme.Operator
import ModalHighlight.Lexeme.Quote
import ModalHighlight.Lexeme.Word
import ModalHighlight.Proofs.Text.Whole

/-! # Where lexemes end

Every recogniser that finds a lexeme answers with a length that is not zero,
stays within the bytes it was given, and does not end inside a character of
theirs.  Nothing is assumed of the bytes: broken ones are only denied the last
part.  The lexemes are cut into the pieces that they are made of, single ASCII
bytes, runs of a class and whole characters, and the cuts are added up.
-/

namespace ModalHighlight

/-! ## Classes are ASCII -/

namespace Byte

theorem isDigit_ascii {b : UInt8} (member : isDigit b = true) : b < 0x80 := by
  grind [isDigit]

theorem isUpper_ascii {b : UInt8} (member : isUpper b = true) : b < 0x80 := by
  grind [isUpper]

theorem isLower_ascii {b : UInt8} (member : isLower b = true) : b < 0x80 := by
  grind [isLower]

theorem isBinaryDigit_ascii {b : UInt8} (member : isBinaryDigit b = true) : b < 0x80 := by
  grind [isBinaryDigit]

theorem isOctalDigit_ascii {b : UInt8} (member : isOctalDigit b = true) : b < 0x80 := by
  grind [isOctalDigit]

theorem isHexDigit_ascii {b : UInt8} (member : isHexDigit b = true) : b < 0x80 := by
  grind [isHexDigit, isDigit]

theorem isIdentifierStart_ascii {b : UInt8} (member : isIdentifierStart b = true) : b < 0x80 := by
  simp only [isIdentifierStart, Bool.or_eq_true, beq_iff_eq] at member
  obtain (upper | lower) | rfl := member
  · exact isUpper_ascii upper
  · exact isLower_ascii lower
  · decide

theorem isIdentifier_ascii {b : UInt8} (member : isIdentifier b = true) : b < 0x80 := by
  simp only [isIdentifier, Bool.or_eq_true] at member
  obtain first | digit := member
  · exact isIdentifierStart_ascii first
  · exact isDigit_ascii digit

end Byte

namespace Lexeme

open Text

/-- A lexeme of some length stands in front of a text. -/
structure Fits (text : List UInt8) (length : Nat) : Prop where
  pos : 0 < length
  cut : Cut text length

namespace Fits

theorem ne_nil {text : List UInt8} {length : Nat} (fits : Fits text length) : text ≠ [] := by
  rintro rfl
  exact absurd fits.pos (Nat.not_lt.2 fits.cut.le_length)

theorem cons {b : UInt8} {more : List UInt8} {length : Nat} (ascii : b < 0x80)
    (cut : Cut more length) : Fits (b :: more) (length + 1) :=
  ⟨Nat.succ_pos _, cut.cons ascii⟩

theorem one {b : UInt8} (more : List UInt8) (ascii : b < 0x80) : Fits (b :: more) 1 :=
  ⟨Nat.one_pos, cut_ascii more ascii⟩

theorem snoc {text : List UInt8} {length : Nat} {b : UInt8} (cut : Cut text length)
    (next : text[length]? = some b) (ascii : b < 0x80) : Fits text (length + 1) :=
  ⟨Nat.succ_pos _, cut.snoc next ascii⟩

theorem add {text : List UInt8} {first second : Nat} (fits : Fits text first)
    (cut : Cut (text.drop first) second) : Fits text (first + second) :=
  ⟨Nat.lt_of_lt_of_le fits.pos (Nat.le_add_right _ _), fits.cut.add cut⟩

end Fits

variable {text : List UInt8} {length : Nat}

/-! ## Fixed texts and single characters -/

theorem literal_fits {expected : List UInt8} (whole : Whole expected)
    (nonempty : expected ≠ []) (found : literal expected text = some length) :
    Fits text length := by
  simp only [literal, Option.ite_none_right_eq_some, List.isPrefixOf_iff_prefix,
    Option.some.injEq] at found
  obtain ⟨⟨rest, rfl⟩, rfl⟩ := found
  exact ⟨List.length_pos_iff.2 nonempty, cut_append whole rest⟩

theorem oneOf_fits {set : List UInt8} (ascii : ∀ b ∈ set, b < 0x80)
    (found : oneOf set text = some length) : Fits text length := by
  cases text with
  | nil => cases found
  | cons b more =>
    simp only [oneOf, Option.ite_none_right_eq_some, List.contains_iff_mem,
      Option.some.injEq] at found
    obtain ⟨member, rfl⟩ := found
    exact .one more (ascii b member)

theorem charLength_fits (lead : UInt8) (more : List UInt8) :
    Fits (lead :: more) (Byte.charLength (lead :: more)) :=
  ⟨Byte.charLength_pos lead more, cut_charLength _⟩

theorem stray_fits {allowed : List UInt8}
    (found : stray allowed text = some length) : Fits text length := by
  cases text with
  | nil => cases found
  | cons b more =>
    simp only [stray, Option.ite_none_left_eq_some, Option.some.injEq] at found
    exact found.2 ▸ charLength_fits b more

theorem lineComment_fits (found : lineComment text = some length) : Fits text length := by
  cases slashes : literal (bytes "//") text with
  | none => simp [lineComment, slashes] at found
  | some two =>
    simp only [lineComment, slashes, Option.some.injEq] at found
    have opening : Fits text two := literal_fits (whole_bytes _) (by decide) slashes
    -- Whatever the comment is made of, it ends in front of an ASCII byte.
    have onlyNewline : ∀ b : UInt8, (b != Byte.newline) = false → b < 0x80 := by
      intro b newline
      exact (bne_eq_false_iff_eq.1 newline) ▸ by decide
    exact found ▸ opening.add (cut_run_until onlyNewline _)

/-! ## Quotes -/

theorem quoteOpen_fits (found : quoteOpen text = some length) : Fits text length := by
  cases text with
  | nil => cases found
  | cons lead more =>
    simp only [quoteOpen, Bool.and_eq_true, beq_iff_eq] at found
    split at found
    next quote => exact Option.some.inj found ▸ .one more (quote ▸ by decide)
    next =>
      split at found
      next letter =>
        obtain ⟨next, rest, rfl⟩ : ∃ b rest, more = b :: rest := by
          cases more with
          | nil => simp at letter
          | cons b rest => exact ⟨b, rest, rfl⟩
        obtain ⟨rfl, rfl⟩ : lead = Byte.letterB ∧ next = Byte.quote := by simpa using letter
        exact Option.some.inj found ▸ .cons (by decide) (cut_ascii rest (by decide))
      next => cases found

theorem hashes_cut (text : List UInt8) : Cut text (Byte.runLength (· == Byte.hash) text) :=
  cut_run (fun b (hash : (b == Byte.hash) = true) => eq_of_beq hash ▸ by decide) text

theorem rawOpen_fits {hashes : Nat} (found : rawOpen text = some (length, hashes)) :
    Fits text length := by
  cases text with
  | nil => cases found
  | cons lead more =>
    simp only [rawOpen, beq_iff_eq, Option.ite_none_right_eq_some, Bool.and_eq_true,
      Option.some.injEq, Prod.mk.injEq] at found
    obtain ⟨rfl, ⟨quote, _⟩, rfl, rfl⟩ := found
    exact .cons (by decide) ((hashes_cut more).snoc quote (by decide))

theorem rawClose_fits {hashes : Nat} (found : rawClose hashes text = some length) :
    Fits text length := by
  cases text with
  | nil => cases found
  | cons lead more =>
    simp only [rawClose, Option.ite_none_right_eq_some, Bool.and_eq_true, beq_iff_eq,
      Option.some.injEq] at found
    obtain ⟨⟨rfl, rfl⟩, rfl⟩ := found
    exact .cons (by decide) (hashes_cut more)

theorem escape_fits (found : escape text = some length) : Fits text length := by
  match text with
  | [] | [_] => cases found
  | lead :: next :: more =>
    simp only [escape, beq_iff_eq, Option.ite_none_right_eq_some, Option.some.injEq] at found
    obtain ⟨rfl, rfl⟩ := found
    rw [Nat.add_comm]
    exact .cons (by decide) (cut_charLength _)

/-! ## Character literals -/

theorem closedAfter_fits {count : Nat} (cut : Cut text count)
    (found : closedAfter count text = some length) : Fits text length := by
  simp only [closedAfter, beq_iff_eq, Option.ite_none_right_eq_some, Option.some.injEq] at found
  exact found.2 ▸ .snoc cut found.1 (by decide)

/-- Bytes that are counted off and all of an ASCII class end between characters. -/
theorem cut_of_all_take {inClass : UInt8 → Bool} (ascii : ∀ b, inClass b = true → b < 0x80)
    {count : Nat} (full : (text.take count).length = count)
    (all : (text.take count).all inClass = true) : Cut text count := by
  induction count generalizing text with
  | zero => exact cut_zero text
  | succ count ih =>
    cases text with
    | nil => simp at full
    | cons b more =>
      simp only [List.take_succ_cons, List.length_cons, Nat.add_right_cancel_iff,
        List.all_cons, Bool.and_eq_true] at full all
      exact (ih full all.2).cons (ascii b all.1)

theorem countedEscape_fits {letter : UInt8} {count : Nat} (ascii : letter < 0x80)
    (found : countedEscape letter count text = some length) : Fits text length := by
  cases text with
  | nil => cases found
  | cons lead more =>
    simp only [countedEscape, Bool.and_eq_true, beq_iff_eq, Option.ite_none_right_eq_some]
      at found
    obtain ⟨⟨⟨rfl, full⟩, all⟩, closed⟩ := found
    have counted : Cut more count := cut_of_all_take (fun _ => Byte.isIdentifier_ascii) full all
    rw [Nat.add_comm] at closed
    exact closedAfter_fits (counted.cons ascii) closed

theorem closedChar_fits (found : closedChar text = some length) : Fits text length := by
  cases text with
  | nil => cases found
  | cons lead more =>
    simp only [closedChar, Option.ite_none_left_eq_some] at found
    exact closedAfter_fits (cut_charLength _) found.2

theorem charBody_fits (found : charBody text = some length) : Fits text length := by
  simp only [charBody, Option.or_eq_some_iff] at found
  rcases found with two | ⟨_, four | ⟨_, eight | ⟨_, char⟩⟩⟩
  · exact countedEscape_fits (by decide) two
  · exact countedEscape_fits (by decide) four
  · exact countedEscape_fits (by decide) eight
  · exact closedChar_fits char

/-- A byte in front of a lexeme that was found behind it. -/
theorem Fits.of_map_succ {b : UInt8} {more : List UInt8} {result : Option Nat} {length : Nat}
    (ascii : b < 0x80) (fits : ∀ inner, result = some inner → Fits more inner)
    (found : result.map (· + 1) = some length) : Fits (b :: more) length := by
  obtain ⟨inner, some, rfl⟩ := Option.map_eq_some_iff.1 found
  exact .cons ascii (fits inner some).cut

theorem charContent_fits (found : charContent text = some length) : Fits text length := by
  cases text with
  | nil => cases found
  | cons lead more =>
    simp only [charContent, beq_iff_eq] at found
    split at found
    next backslash =>
      rcases Option.or_eq_some_iff.1 found with escaped | ⟨_, plain⟩
      · exact .of_map_succ (backslash ▸ by decide) (fun _ => charBody_fits) escaped
      · exact charBody_fits plain
    next => exact charBody_fits found

theorem quotedChar_fits (found : quotedChar text = some length) : Fits text length := by
  cases text with
  | nil => cases found
  | cons lead more =>
    simp only [quotedChar, beq_iff_eq, Option.ite_none_right_eq_some] at found
    exact .of_map_succ (found.1 ▸ by decide) (fun _ => charContent_fits) found.2

theorem charLiteral_fits (found : charLiteral text = some length) : Fits text length := by
  cases text with
  | nil => cases found
  | cons lead more =>
    simp only [charLiteral, beq_iff_eq] at found
    split at found
    next letter => exact .of_map_succ (letter ▸ by decide) (fun _ => quotedChar_fits) found
    next => exact quotedChar_fits found

/-! ## Words -/

theorem wordLength_cut (text : List UInt8) : Cut text (wordLength text) :=
  cut_run (fun _ => Byte.isIdentifier_ascii) text

theorem wordFrom_fits {starts : UInt8 → Bool}
    (member : ∀ b, starts b = true → Byte.isIdentifier b = true)
    (found : wordFrom starts text = some length) : Fits text length := by
  cases text with
  | nil => cases found
  | cons lead more =>
    simp only [wordFrom, Option.ite_none_right_eq_some, Option.some.injEq] at found
    obtain ⟨start, rfl⟩ := found
    refine ⟨?_, wordLength_cut _⟩
    rw [wordLength, runLength_cons_of_mem (member lead start)]
    exact Nat.succ_pos _

theorem identifier_fits (found : identifier text = some length) : Fits text length :=
  wordFrom_fits (by simp +contextual [Byte.isIdentifier]) found

theorem capitalized_fits (found : capitalized text = some length) : Fits text length :=
  wordFrom_fits (by grind [Byte.isIdentifier, Byte.isIdentifierStart]) found

theorem screamingCase_fits (found : screamingCase text = some length) : Fits text length :=
  capitalized_fits (Option.filter_eq_some_iff.1 found).1

theorem keywordBeforeBlank_fits {words : List String}
    (found : keywordBeforeBlank words text = some length) : Fits text length :=
  identifier_fits (Option.filter_eq_some_iff.1 found).1

theorem call_fits (found : call text = some length) : Fits text length :=
  wordFrom_fits (by grind [Byte.isIdentifier, Byte.isIdentifierStart])
    (Option.filter_eq_some_iff.1 found).1

theorem qualifiedPath_fits {head : Nat} (found : qualifiedPath text = some (head, length)) :
    Fits text head ∧ Fits text length ∧ head ≤ length := by
  cases word : identifier text with
  | none => simp [qualifiedPath, word] at found
  | some inner =>
    simp only [qualifiedPath, word, Option.ite_none_right_eq_some, Option.some.injEq,
      Prod.mk.injEq, List.isPrefixOf_iff_prefix] at found
    obtain ⟨⟨rest, colons⟩, rfl, rfl⟩ := found
    have name := identifier_fits word
    refine ⟨name, name.add ?_, Nat.le_add_right _ _⟩
    exact colons ▸ cut_append (whole_bytes "::") rest

theorem symbol_fits (found : symbol text = some length) : Fits text length := by
  cases text with
  | nil => cases found
  | cons b more =>
    simp only [symbol, beq_iff_eq, Option.ite_none_right_eq_some] at found
    exact .of_map_succ (found.1 ▸ by decide) (fun _ => identifier_fits) found.2

/-! ## Operators and numbers -/

theorem longOperators_ascii : ∀ operator ∈ longOperators,
    operator.length = 2 ∧ ∀ b ∈ operator, b < 0x80 := by decide +kernel

theorem shortOperators_ascii : ∀ b ∈ shortOperators, b < 0x80 := by decide +kernel

theorem operator_fits (found : operator text = some length) : Fits text length := by
  cases text with
  | nil => cases found
  | cons lead more =>
    simp only [operator, List.contains_iff_mem, Bool.and_eq_true, beq_iff_eq] at found
    split at found
    next long =>
      obtain ⟨two, ascii⟩ := longOperators_ascii _ long
      cases more with
      | nil => simp at two
      | cons second rest =>
        have both : lead < 0x80 ∧ second < 0x80 := by simpa using ascii
        exact Option.some.inj found ▸ .cons both.1 (cut_ascii rest both.2)
    next =>
      split at found
      next short => exact Option.some.inj found ▸ .one more (shortOperators_ascii lead short)
      next =>
        simp only [Option.ite_none_right_eq_some, Option.some.injEq] at found
        exact found.2 ▸ .one more (found.1.1 ▸ by decide)

theorem isDigitOf_ascii {inClass : UInt8 → Bool} (ascii : ∀ b, inClass b = true → b < 0x80)
    {b : UInt8} (member : isDigitOf inClass b = true) : b < 0x80 := by
  simp only [isDigitOf, Bool.or_eq_true, beq_iff_eq] at member
  rcases member with digit | rfl
  · exact ascii b digit
  · decide

theorem digits_cut {inClass : UInt8 → Bool} (ascii : ∀ b, inClass b = true → b < 0x80)
    (text : List UInt8) : Cut text (Byte.runLength (isDigitOf inClass) text) :=
  cut_run (fun _ => isDigitOf_ascii ascii) text

theorem digitsAnnouncedBy_ascii {letter : UInt8} {inClass : UInt8 → Bool}
    (found : digitsAnnouncedBy letter = some inClass) :
    letter < 0x80 ∧ ∀ b, inClass b = true → b < 0x80 := by
  simp only [digitsAnnouncedBy, beq_iff_eq] at found
  split at found
  next h => exact ⟨h ▸ by decide, Option.some.inj found ▸ fun _ => Byte.isBinaryDigit_ascii⟩
  next =>
    split at found
    next h => exact ⟨h ▸ by decide, Option.some.inj found ▸ fun _ => Byte.isOctalDigit_ascii⟩
    next =>
      simp only [Option.ite_none_right_eq_some, Option.some.injEq] at found
      exact ⟨found.1 ▸ by decide, found.2 ▸ fun _ => Byte.isHexDigit_ascii⟩

theorem radixNumber_fits (found : radixNumber text = some length) : Fits text length := by
  match text with
  | [] | [_] => cases found
  | lead :: letter :: more =>
    simp only [radixNumber, beq_iff_eq, Option.ite_none_right_eq_some] at found
    obtain ⟨rfl, found⟩ := found
    cases announced : digitsAnnouncedBy letter with
    | none => simp [announced] at found
    | some inClass =>
      obtain ⟨asciiLetter, ascii⟩ := digitsAnnouncedBy_ascii announced
      have digits := digits_cut ascii more
      cases count : Byte.runLength (isDigitOf inClass) more with
      | zero => simp [announced, count] at found
      | succ others =>
        simp only [announced, count, Option.some.injEq] at found
        exact found ▸ .cons (by decide) ((count ▸ digits).cons asciiLetter)

theorem fractionLength_cut (text : List UInt8) : Cut text (fractionLength text) := by
  cases text with
  | nil => exact cut_zero []
  | cons b more =>
    simp only [fractionLength, beq_iff_eq]
    split
    next dot =>
      have digits := digits_cut (fun _ => Byte.isDigit_ascii) more
      split
      next => exact cut_zero _
      next count eq => exact (eq ▸ digits).cons (dot ▸ by decide)
    next => exact cut_zero _

theorem signLength_cut (text : List UInt8) : Cut text (signLength text) := by
  cases text with
  | nil => exact cut_zero []
  | cons b more =>
    simp only [signLength, Bool.or_eq_true, beq_iff_eq]
    split
    next sign => exact cut_ascii more (by rcases sign with rfl | rfl <;> decide)
    next => exact cut_zero _

theorem exponentLength_cut (text : List UInt8) : Cut text (exponentLength text) := by
  cases text with
  | nil => exact cut_zero []
  | cons b more =>
    simp only [exponentLength, Bool.or_eq_true, beq_iff_eq]
    split
    next letter =>
      have digits := digits_cut (fun _ => Byte.isDigit_ascii) (more.drop (signLength more))
      split
      next => exact cut_zero _
      next count eq =>
        -- The sign and the digits behind it, and then the letter in front of both.
        have both := (signLength_cut more).add (eq ▸ digits)
        exact both.cons (by rcases letter with rfl | rfl <;> decide)
    next => exact cut_zero _

theorem decimalLength_cut (text : List UInt8) : Cut text (decimalLength text) :=
  ((digits_cut (fun _ => Byte.isDigit_ascii) text).add (fractionLength_cut _)).add
    (exponentLength_cut _)

theorem number_fits (found : number text = some length) : Fits text length := by
  cases text with
  | nil => cases found
  | cons lead more =>
    simp only [number, Option.ite_none_right_eq_some] at found
    obtain ⟨digit, found⟩ := found
    cases radix : radixNumber (lead :: more) with
    | some inner =>
      simp only [radix, Option.some.injEq] at found
      exact found ▸ radixNumber_fits radix
    | none =>
      simp only [radix, Option.some.injEq] at found
      subst found
      refine ⟨?_, decimalLength_cut _⟩
      have first : isDigitOf Byte.isDigit lead = true := by simp [isDigitOf, digit]
      simp only [decimalLength, runLength_cons_of_mem first]
      omega

end Lexeme

end ModalHighlight
